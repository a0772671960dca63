/-
  VlanConnect/Client/RawUdpSteps.lean
  ===================================
  **What the calls of the raw UDP transport do.**

  Fragments survive the wire between two ends with the same settings; no call
  changes these; sending does not touch the receiving side; and, where there is
  room, a fragment of a packet changes one entry of the table.
-/
import VlanConnect.Client.RawUdp

namespace VlanConnect

open ByteBuffer PieceTable

/-- The packets handed up. -/
def TunnelEffect.packets (effects : List TunnelEffect) : List Bytes :=
  effects.filterMap fun
    | .data packet => some packet
    | _ => none

theorem TunnelEffect.packets_append (es es' : List TunnelEffect) :
    TunnelEffect.packets (es ++ es') = TunnelEffect.packets es ++ TunnelEffect.packets es' :=
  List.filterMap_append

/-- The entry with one more fragment. -/
def ReassemblyEntry.withFragment (e : ReassemblyEntry) (i : Nat) (payload : Bytes) :
    ReassemblyEntry :=
  { e with fragments := e.fragments.insert i payload, receivedCount := e.receivedCount + 1 }

namespace CliRawUdpTunnel

variable {cm : Cm256} {t : CliRawUdpTunnel}

/-! ### Fragments on the wire -/

/-- The number of fragments of a packet. -/
def fragTotal (t : CliRawUdpTunnel) (packet : Bytes) : Nat :=
  (packet.length + t.maxFragmentPayload - 1) / t.maxFragmentPayload

/-- The fragments that `send` makes of a packet. -/
def outgoing (t : CliRawUdpTunnel) (packet : Bytes) (i : Nat) : Fragment :=
  fragmentOf t.maxFragmentPayload (t.fragTotal packet) t.nextMsgId packet i

/-- What the valid MTUs leave for a fragment, with any of the headers. -/
theorem maxFragmentPayload_bounds (hmtu : isValidRoomMtuValue t.roomMtu = true) :
    t.roomMtu ≤ t.maxFragmentPayload + 49 ∧ 1000 ≤ t.maxFragmentPayload ∧
    t.maxFragmentPayload ≤ t.roomMtu ∧
      t.roomMtu ≤ 1420 := by
  have hcases : t.roomMtu = ROOM_MTU_SAFE ∨ t.roomMtu = ROOM_MTU_BALANCED ∨
      t.roomMtu = ROOM_MTU_AGGRESSIVE :=
    of_decide_eq_true hmtu
  unfold maxFragmentPayload
  generalize decide (t.fecMode ≠ .none) = fec
  generalize t.secureFrames = secure
  generalize t.roomMtu = mtu at hcases ⊢
  rcases hcases with rfl | rfl | rfl <;> cases fec <;> cases secure <;> decide

theorem fragTotal_bounds (hmtu : isValidRoomMtuValue t.roomMtu = true) {packet : Bytes}
    (hpos : 1 ≤ packet.length) (hle : packet.length ≤ t.roomMtu) :
    1 ≤ t.fragTotal packet ∧ t.fragTotal packet ≤ 2 ∧
      (t.fragTotal packet - 1) * t.maxFragmentPayload < packet.length ∧
      packet.length ≤ t.fragTotal packet * t.maxFragmentPayload := by
  obtain ⟨h₁, h₂, h₃, h₄⟩ := maxFragmentPayload_bounds hmtu
  unfold fragTotal
  generalize t.maxFragmentPayload = m at h₁ h₂ h₃ ⊢
  have hmod := Nat.div_add_mod (packet.length + m - 1) m
  have hlt := Nat.mod_lt (packet.length + m - 1) (by omega : m > 0)
  have htwo : (packet.length + m - 1) / m ≤ 2 := by
    rw [Nat.div_le_iff_le_mul_add_pred (by omega)]
    omega
  have hone : 1 ≤ (packet.length + m - 1) / m := by
    rw [Nat.one_le_div_iff (by omega)]
    omega
  generalize (packet.length + m - 1) / m = k at hmod htwo hone ⊢
  refine ⟨hone, htwo, ?_, ?_⟩
  · obtain rfl | rfl : k = 1 ∨ k = 2 := by omega
    · omega
    · omega
  · rw [Nat.mul_comm]
    omega

theorem length_outgoing (hmtu : isValidRoomMtuValue t.roomMtu = true) {packet : Bytes}
    (hpos : 1 ≤ packet.length) (hle : packet.length ≤ t.roomMtu) {i : Nat}
    (hi : i < t.fragTotal packet) :
    (t.outgoing packet i).payload.length = if i + 1 = t.fragTotal packet
      then packet.length - t.maxFragmentPayload * (t.fragTotal packet - 1)
      else t.maxFragmentPayload := by
  obtain ⟨h₁, h₂, h₃, h₄⟩ := fragTotal_bounds hmtu hpos hle
  simp only [outgoing, fragmentOf, List.length_take, List.length_drop]
  generalize t.fragTotal packet = k at hi h₁ h₂ h₃ h₄ ⊢
  obtain ⟨rfl, rfl⟩ | ⟨rfl, rfl⟩ | ⟨rfl, rfl⟩ : (k = 1 ∧ i = 0) ∨ (k = 2 ∧ i = 0) ∨
    (k = 2 ∧ i = 1) := by omega
  all_goals simp only [Nat.reduceAdd, Nat.reduceSub, Nat.reduceEqDiff, if_true, if_false]
  all_goals omega

/-- The fragments of a packet are the packet. -/
theorem flatten_outgoing (hmtu : isValidRoomMtuValue t.roomMtu = true) {packet : Bytes}
    (hpos : 1 ≤ packet.length) (hle : packet.length ≤ t.roomMtu) :
    ((List.range (t.fragTotal packet)).map fun i => (t.outgoing packet i).payload).flatten =
    packet := by
  obtain ⟨h₁, h₂, h₃, h₄⟩ := fragTotal_bounds hmtu hpos hle
  simp only [outgoing, fragmentOf]
  generalize t.fragTotal packet = k at h₁ h₂ h₃ h₄ ⊢
  obtain rfl | rfl : k = 1 ∨ k = 2 := by omega
  · simp only [List.range_succ, List.range_zero, List.nil_append, List.map_cons, List.map_nil,
      List.flatten_cons, List.flatten_nil, List.append_nil, Nat.zero_mul, List.drop_zero,
      Nat.sub_zero]
    exact List.take_of_length_le (by omega)
  · simp only [List.range_succ, List.range_zero, List.nil_append, List.cons_append, List.map_cons,
      List.map_nil, List.flatten_cons, List.flatten_nil, List.append_nil, Nat.zero_mul,
      List.drop_zero, Nat.sub_zero, Nat.one_mul]
    have hfirst : min t.maxFragmentPayload packet.length = t.maxFragmentPayload := by omega
    have hsecond : (packet.drop t.maxFragmentPayload).take
        (min t.maxFragmentPayload (packet.length - t.maxFragmentPayload)) =
        packet.drop t.maxFragmentPayload :=
      List.take_of_length_le (by rw [List.length_drop]; omega)
    rw [hfirst, hsecond, List.take_append_drop]

theorem writeU16_two (v : Nat) :
    ∃ a b, writeU16 v = [a, b] ∧ BigEndian.decode [a, b] = v % 2 ^ 16 := by
  obtain ⟨a, b, hab⟩ := List.length_eq_two.mp (length_writeU16 v)
  refine ⟨a, b, hab, ?_⟩
  rw [← hab]
  exact BigEndian.decode_encode 2 v

/-- A receiver with the same settings reads a fragment as it was sent. -/
theorem readFragment_outgoing {r : CliRawUdpTunnel} (hmtu : isValidRoomMtuValue t.roomMtu = true)
    (hroom : r.roomMtu = t.roomMtu) (hmax : r.maxFragmentPayload = t.maxFragmentPayload)
    (hid : t.nextMsgId < 2 ^ 16) {packet : Bytes} (hpos : 1 ≤ packet.length)
    (hle : packet.length ≤ t.roomMtu) {i : Nat} (hi : i < t.fragTotal packet) :
    r.readFragment (t.outgoing packet i).bytes = some (t.outgoing packet i) := by
  obtain ⟨h₁, h₂, h₃, h₄⟩ := fragTotal_bounds hmtu hpos hle
  obtain ⟨-, hmaxPos, -, hmtuLe⟩ := maxFragmentPayload_bounds hmtu
  have hlen := length_outgoing hmtu hpos hle hi
  obtain ⟨m₁, m₀, hm, hmd⟩ := writeU16_two t.nextMsgId
  obtain ⟨l₁, l₀, hl, hld⟩ := writeU16_two packet.length
  have hbytes : (t.outgoing packet i).bytes = m₁ :: m₀ :: UInt8.ofNat i :: UInt8.ofNat
    (t.fragTotal packet) ::
      l₁ :: l₀ :: (t.outgoing packet i).payload := by
    change writeU16 t.nextMsgId ++ [UInt8.ofNat i, UInt8.ofNat (t.fragTotal packet)] ++
      writeU16 packet.length ++ _ = _
    rw [hm, hl]
    rfl
  have hidx : (UInt8.ofNat i).toNat = i := UInt8.toNat_ofNat_of_lt' (show i < 256 by omega)
  have htotal : (UInt8.ofNat (t.fragTotal packet)).toNat = t.fragTotal packet :=
    UInt8.toNat_ofNat_of_lt' (show t.fragTotal packet < 256 by omega)
  have hpayload : (t.outgoing packet i).payload ≠ [] := by
    rw [← List.length_pos_iff, hlen]
    split
    · rw [Nat.mul_comm]
      omega
    · omega
  rw [hbytes, readFragment]
  simp only [hidx, htotal, hmd, hld, hroom, hmax]
  rw [Nat.mod_eq_of_lt hid, Nat.mod_eq_of_lt (by omega : packet.length < 2 ^ 16), if_neg (by
    rintro (h | h | h | h | h)
    · exact hpayload h
    all_goals omega)]
  change (if t.fragTotal packet ≠ t.fragTotal packet then none else _) = _
  rw [if_neg (not_not.mpr rfl), if_neg (not_not.mpr hlen)]
  rfl

/-- `send` passes exactly these fragments on. -/
theorem send_eq (cm : Cm256) (now : Nat) (hmtu : isValidRoomMtuValue t.roomMtu = true)
    {packet : Bytes} (hpos : 1 ≤ packet.length) (hle : packet.length ≤ t.roomMtu) :
    t.send cm now packet = ((packet.length : Int),
      { t with nextMsgId := (t.nextMsgId + 1) % 2 ^ 16 }.sendFragments cm now
      ((List.range (t.fragTotal packet)).map (t.outgoing packet))) := by
  obtain ⟨h₁, h₂, -, -⟩ := fragTotal_bounds hmtu hpos hle
  have hne : packet ≠ [] := List.length_pos_iff.mp hpos
  unfold send
  rw [if_neg hne, if_neg (not_lt.mpr hle)]
  dsimp only
  have htotal :
    (packet.length + ({ t with
      nextMsgId := (t.nextMsgId + 1) % 2 ^ 16 } : CliRawUdpTunnel).maxFragmentPayload - 1) /
      ({ t with nextMsgId := (t.nextMsgId + 1) % 2 ^ 16 } : CliRawUdpTunnel).maxFragmentPayload =
      t.fragTotal packet := rfl
  rw [htotal, if_neg (by omega)]
  rfl

/-! ### What a call leaves alone -/

/-- What two ends of a tunnel agree on. -/
def settings (t : CliRawUdpTunnel) : Nat × FecMode × Bool := (t.roomMtu, t.fecMode, t.secureFrames)

/-- The settings stay, and the next id stays one of 16 bits. -/
structure Evolves (t t' : CliRawUdpTunnel) : Prop where
  settings : t'.settings = t.settings
  nextMsgId : t.nextMsgId < 2 ^ 16 → t'.nextMsgId < 2 ^ 16

theorem Evolves.refl (t : CliRawUdpTunnel) : Evolves t t := ⟨rfl, id⟩

theorem Evolves.trans {t t₁ t₂ : CliRawUdpTunnel} (h : Evolves t t₁) (h' : Evolves t₁ t₂) :
    Evolves t t₂ :=
  ⟨h'.settings.trans h.settings, fun hid => h'.nextMsgId (h.nextMsgId hid)⟩

theorem Evolves.after {t t₁ t₂ : CliRawUdpTunnel} (h : Evolves t₁ t₂)
    (hsettings : t₁.settings = t.settings) (hid : t.nextMsgId < 2 ^ 16 → t₁.nextMsgId < 2 ^ 16) :
    Evolves t t₂ :=
  Evolves.trans ⟨hsettings, hid⟩ h

theorem evolves_sendRawPackets (t : CliRawUdpTunnel) (now : Nat) (payloads : List Bytes) :
    Evolves t (t.sendRawPackets now payloads).2 := by
  induction payloads generalizing t with
  | nil => exact Evolves.refl t
  | cons payload payloads ih => exact (ih _).after rfl id

theorem evolves_sendFragment (cm : Cm256) (t : CliRawUdpTunnel) (now : Nat) (f : Fragment) :
    Evolves t (t.sendFragment cm now f).2 := by
  unfold sendFragment
  dsimp only
  split
  · exact (evolves_sendRawPackets _ now _).after rfl id
  · exact ⟨rfl, id⟩

theorem evolves_sendFragments (cm : Cm256) (t : CliRawUdpTunnel) (now : Nat) (fs : List Fragment) :
    Evolves t (t.sendFragments cm now fs).2 := by
  induction fs generalizing t with
  | nil => exact Evolves.refl t
  | cons f fs ih => exact (evolves_sendFragment cm t now f).trans (ih _)

theorem evolves_send (cm : Cm256) (t : CliRawUdpTunnel) (now : Nat) (packet : Bytes) :
    Evolves t (t.send cm now packet).2.2 := by
  have hnext : Evolves t { t with nextMsgId := (t.nextMsgId + 1) % 2 ^ 16 } :=
    ⟨rfl, fun _ => Nat.mod_lt _ (by decide)⟩
  unfold send
  split
  · exact Evolves.refl t
  split
  · exact Evolves.refl t
  dsimp only
  split
  · exact hnext
  · exact hnext.trans (evolves_sendFragments cm _ now _)

theorem evolves_sendProbe (cm : Cm256) (t : CliRawUdpTunnel) (now : Nat) (probeType : UInt8)
    (timestamp : Bytes) :
    Evolves t (t.sendProbe cm now probeType timestamp).2 :=
  (evolves_sendFragment cm _ now _).after rfl fun _ => Nat.mod_lt _ (by decide)

theorem evolves_deliverIfComplete (t : CliRawUdpTunnel) (msgId : Nat) :
    Evolves t (t.deliverIfComplete msgId).2 := by
  unfold deliverIfComplete
  split
  · exact Evolves.refl t
  split
  · exact Evolves.refl t
  split
  · exact ⟨rfl, id⟩
  · exact ⟨rfl, id⟩

theorem evolves_storeFragment (t : CliRawUdpTunnel) (f : Fragment) :
    Evolves t (t.storeFragment f).2 := by
  unfold storeFragment
  split
  · exact Evolves.refl t
  split
  · exact evolves_deliverIfComplete t f.msgId
  have hroom : Evolves t (t.ensureReassemblyCapacity f.payload.length false).2 := ⟨rfl, id⟩
  generalize t.ensureReassemblyCapacity f.payload.length false = room at hroom ⊢
  obtain ⟨ok, t₁⟩ := room
  dsimp only at hroom ⊢
  split
  · exact hroom
  split
  · exact hroom
  · exact hroom.trans ((evolves_deliverIfComplete _ f.msgId).after rfl id)

theorem evolves_reassemble (t : CliRawUdpTunnel) (now : Nat) (f : Fragment) :
    Evolves t (t.reassemble now f).2 := by
  unfold reassemble
  split
  · split
    · exact ⟨rfl, id⟩
    · exact evolves_storeFragment t f
  · have hroom : Evolves t (t.ensureReassemblyCapacity f.payload.length true).2 := ⟨rfl, id⟩
    generalize t.ensureReassemblyCapacity f.payload.length true = room at hroom ⊢
    obtain ⟨ok, t₁⟩ := room
    dsimp only at hroom ⊢
    split
    · exact hroom
    · exact hroom.trans ((evolves_storeFragment _ f).after rfl id)

theorem evolves_rttMs (t : CliRawUdpTunnel) (rttMs : Int) : Evolves t { t with rttMs := rttMs } :=
  ⟨rfl, id⟩

theorem evolves_processFrag (cm : Cm256) (t : CliRawUdpTunnel) (now : Nat) (data : Bytes) :
    Evolves t (t.processFrag cm now data).2 := by
  unfold processFrag
  split
  · exact Evolves.refl t
  split
  · exact Evolves.refl t
  split
  · exact evolves_sendProbe cm t now _ _
  split
  · exact evolves_rttMs t _
  split
  · exact Evolves.refl t
  · exact evolves_reassemble t now _

theorem evolves_processFrags (cm : Cm256) (t : CliRawUdpTunnel) (now : Nat)
    (payloads : List Bytes) :
    Evolves t (t.processFrags cm now payloads).2 := by
  induction payloads generalizing t with
  | nil => exact Evolves.refl t
  | cons payload payloads ih => exact (evolves_processFrag cm t now payload).trans (ih _)

theorem evolves_feedInput (cm : Cm256) (t : CliRawUdpTunnel) (now : Nat) (data : Bytes) :
    Evolves t (t.feedInput cm now data).2 := by
  unfold feedInput
  split
  · exact Evolves.refl t
  dsimp only
  split
  · exact (evolves_processFrags cm _ now _).after rfl id
  · exact (evolves_processFrag cm _ now data).after rfl id

theorem evolves_flushEncoder (cm : Cm256) (t : CliRawUdpTunnel) (now : Nat) :
    Evolves t (t.flushEncoder cm now).2 := by
  unfold flushEncoder
  split
  · exact (evolves_sendRawPackets _ now _).after rfl id
  · exact Evolves.refl t

/-- A call that only sends: nothing is handed up, and the receiving side stays as it is. -/
structure OnlySends (t : CliRawUdpTunnel) (out : List TunnelEffect × CliRawUdpTunnel) : Prop where
  packets : TunnelEffect.packets out.1 = []
  reassembly : out.2.reassembly = t.reassembly
  lastRecvTime : out.2.lastRecvTime = t.lastRecvTime
  dead : out.2.dead = t.dead

theorem OnlySends.append {t t₁ : CliRawUdpTunnel} {effects : List TunnelEffect}
    {out : List TunnelEffect × CliRawUdpTunnel} (h : OnlySends t (effects, t₁))
    (h' : OnlySends t₁ out) : OnlySends t (effects ++ out.1, out.2) := by
  refine ⟨?_, h'.reassembly.trans h.reassembly, h'.lastRecvTime.trans h.lastRecvTime,
    h'.dead.trans h.dead⟩
  rw [TunnelEffect.packets_append, h.packets, h'.packets, List.nil_append]

theorem OnlySends.after {t t₁ : CliRawUdpTunnel} {out : List TunnelEffect × CliRawUdpTunnel}
    (h : OnlySends t₁ out) (hreassembly : t₁.reassembly = t.reassembly)
    (hrecv : t₁.lastRecvTime = t.lastRecvTime) (hdead : t₁.dead = t.dead) :
    OnlySends t out :=
  ⟨h.packets, h.reassembly.trans hreassembly, h.lastRecvTime.trans hrecv, h.dead.trans hdead⟩

theorem onlySends_sendRawPackets (t : CliRawUdpTunnel) (now : Nat) (payloads : List Bytes) :
    OnlySends t (t.sendRawPackets now payloads) := by
  induction payloads generalizing t with
  | nil => exact ⟨rfl, rfl, rfl, rfl⟩
  | cons payload payloads ih =>
    have hfirst : OnlySends t (t.sendRawPacket now payload) := ⟨rfl, rfl, rfl, rfl⟩
    exact hfirst.append (ih _)

theorem onlySends_sendFragment (cm : Cm256) (t : CliRawUdpTunnel) (now : Nat) (f : Fragment) :
    OnlySends t (t.sendFragment cm now f) := by
  unfold sendFragment
  dsimp only
  split
  · exact (onlySends_sendRawPackets _ now _).after rfl rfl rfl
  · exact ⟨rfl, rfl, rfl, rfl⟩

theorem onlySends_sendPing (cm : Cm256) (t : CliRawUdpTunnel) (now : Nat) :
    OnlySends t (t.sendPing cm now) :=
  (onlySends_sendFragment cm _ now _).after rfl rfl rfl

theorem onlySends_flushEncoder (cm : Cm256) (t : CliRawUdpTunnel) (now : Nat) :
    OnlySends t (t.flushEncoder cm now) := by
  unfold flushEncoder
  split
  · exact (onlySends_sendRawPackets _ now _).after rfl rfl rfl
  · exact ⟨rfl, rfl, rfl, rfl⟩

/-- The tick that finds the peer silent for too long. -/
def Dies (t : CliRawUdpTunnel) (now : Nat) : Prop :=
  t.dead = false ∧ RAW_UDP_DEAD_TIMEOUT_MS < elapsedMs now t.lastRecvTime

instance (t : CliRawUdpTunnel) (now : Nat) : Decidable (t.Dies now) :=
  inferInstanceAs (Decidable (_ ∧ _))

/-- Any other tick sweeps the table. -/
theorem update_sweeps (cm : Cm256) {now : Nat} (h : ¬ t.Dies now) :
    TunnelEffect.packets (t.update cm now).1 = [] ∧
      (t.update cm now).2.reassembly = t.reassembly.expire ReassemblyEntry.shape (fun entry =>
        decide (RAW_UDP_FRAG_TIMEOUT_MS < elapsedMs now entry.createTime)) ∧
      (t.update cm now).2.lastRecvTime = t.lastRecvTime ∧ (t.update cm now).2.dead = t.dead := by
  unfold Dies at h
  unfold update
  rw [if_neg h]
  have hping :
      OnlySends t (if RAW_UDP_KEEPALIVE_MS < elapsedMs now t.lastSendTime then t.sendPing cm now
        else ([], t)) := by
    split
    · exact onlySends_sendPing cm t now
    · exact ⟨rfl, rfl, rfl, rfl⟩
  generalize (if RAW_UDP_KEEPALIVE_MS < elapsedMs now t.lastSendTime then t.sendPing cm now
    else ([], t)) = ping
    at hping ⊢
  obtain ⟨pings, t₁⟩ := ping
  have hboth := hping.append (onlySends_flushEncoder cm t₁ now)
  dsimp only
  generalize t₁.flushEncoder cm now = flushed at hboth ⊢
  obtain ⟨packets, t₂⟩ := flushed
  dsimp only at hboth ⊢
  refine ⟨hboth.packets, ?_, ?_, ?_⟩
  · rw [← hboth.reassembly]
    split <;> rfl
  · rw [← hboth.lastRecvTime]
    split <;> rfl
  · rw [← hboth.dead]
    split <;> rfl

theorem evolves_update (cm : Cm256) (t : CliRawUdpTunnel) (now : Nat) :
    Evolves t (t.update cm now).2 := by
  unfold update
  split
  · exact ⟨rfl, id⟩
  have hping :
      Evolves t (if RAW_UDP_KEEPALIVE_MS < elapsedMs now t.lastSendTime then t.sendPing cm now
        else ([], t)).2 := by
    split
    · exact evolves_sendProbe cm t now _ _
    · exact Evolves.refl t
  generalize (if RAW_UDP_KEEPALIVE_MS < elapsedMs now t.lastSendTime then t.sendPing cm now
    else ([], t)) = ping
    at hping ⊢
  obtain ⟨pings, t₁⟩ := ping
  have hflush := evolves_flushEncoder cm t₁ now
  dsimp only at hping ⊢
  generalize t₁.flushEncoder cm now = flushed at hflush ⊢
  obtain ⟨packets, t₂⟩ := flushed
  dsimp only at hflush ⊢
  refine hping.trans (hflush.trans ?_)
  split
  · exact ⟨rfl, id⟩
  · exact ⟨rfl, id⟩

/-! ### The table -/

theorem entry_setEntry (m : Nat) (e : ReassemblyEntry) (added k : Nat) :
    (t.setEntry m e added).entry k = if k = m then some e else t.entry k := by
  simp only [entry, setEntry, Std.ExtTreeMap.getElem?_insert, compare_eq_iff_eq, eq_comm (a := m)]

theorem entry_removeReassemblyEntry (m k : Nat) :
    (t.removeReassemblyEntry m).entry k = if k = m then none else t.entry k :=
  Table.get_remove t.reassembly m k

/-- Where there is room, making room changes nothing. -/
theorem ensure_of_room {incoming : Nat} {new : Bool}
    (hnew : new = true → t.reassembly.entries.size < RAW_UDP_MAX_ACTIVE_MESSAGES)
    (hbytes : t.reassembly.bytes + incoming ≤ RAW_UDP_MAX_REASSEMBLY_BYTES) :
    t.ensureReassemblyCapacity incoming new = (true, t) := by
  have hensure : t.reassembly.ensure ReassemblyEntry.shape limits incoming new =
      (true, t.reassembly) :=
    Table.ensure_of_room hnew hbytes
  unfold ensureReassemblyCapacity
  rw [hensure]

/-- A new fragment of a message in the table: it is kept, or it completes the message. -/
theorem storeFragment_new {f : Fragment} {e : ReassemblyEntry} (he : t.entry f.msgId = some e)
    (hnew : f.fragIndex ∉ e.fragments)
    (hbytes : t.reassembly.bytes + f.payload.length ≤ RAW_UDP_MAX_REASSEMBLY_BYTES) :
    t.storeFragment f =
      (t.setEntry f.msgId (e.withFragment f.fragIndex f.payload) f.payload.length).deliverIfComplete
      f.msgId := by
  unfold storeFragment
  have hroom : t.ensureReassemblyCapacity f.payload.length false = (true, t) :=
    ensure_of_room nofun hbytes
  rw [he]
  dsimp only
  rw [if_neg hnew, hroom]
  dsimp only
  rw [if_neg (not_not.mpr rfl), he]
  rfl

/-- The last fragment of a message: it is handed on, or dropped for its length. -/
theorem deliverIfComplete_last {msgId : Nat} {e : ReassemblyEntry} {packet : Bytes}
    (he : t.entry msgId = some e) (hall : ¬ e.receivedCount < e.fragTotal)
    (hassembled : e.assembled = some packet) :
    t.deliverIfComplete msgId =
      (if packet.length = e.totalLen then [.data packet] else [],
        t.removeReassemblyEntry msgId) := by
  unfold deliverIfComplete
  rw [he]
  dsimp only
  rw [if_neg hall, hassembled]

/-- The entry of a message before its first fragment. -/
def freshEntry (now : Nat) (f : Fragment) : ReassemblyEntry :=
  { totalLen := f.totalLen, fragTotal := f.fragTotal, createTime := now }

/-- The first fragment of a message. -/
theorem reassemble_first {now : Nat} {f : Fragment} (hnone : t.entry f.msgId = none)
    (htotal : 2 ≤ f.fragTotal) (hsize : t.reassembly.entries.size < RAW_UDP_MAX_ACTIVE_MESSAGES)
    (hbytes : t.reassembly.bytes + f.payload.length ≤ RAW_UDP_MAX_REASSEMBLY_BYTES) :
    t.reassemble now f = ([], (t.setEntry f.msgId (freshEntry now f) 0).setEntry f.msgId
      ((freshEntry now f).withFragment f.fragIndex f.payload) f.payload.length) := by
  have hfound : (t.setEntry f.msgId (freshEntry now f) 0).entry f.msgId =
      some (freshEntry now f) := by
    rw [entry_setEntry, if_pos rfl]
  have hstored := storeFragment_new hfound Std.ExtTreeMap.not_mem_empty hbytes
  have hroom : t.ensureReassemblyCapacity f.payload.length true = (true, t) :=
    ensure_of_room (fun _ => hsize) hbytes
  unfold reassemble
  rw [hnone]
  dsimp only
  rw [hroom]
  dsimp only
  rw [if_neg (not_not.mpr rfl)]
  change (t.setEntry f.msgId (freshEntry now f) 0).storeFragment f = _
  rw [hstored]
  unfold deliverIfComplete
  rw [entry_setEntry, if_pos rfl]
  dsimp only
  exact if_pos (show 0 + 1 < f.fragTotal by omega)

/-- A further fragment of a message. -/
theorem reassemble_next {now : Nat} {f : Fragment} {e : ReassemblyEntry}
    (he : t.entry f.msgId = some e) (hlen : e.totalLen = f.totalLen)
    (htotal : e.fragTotal = f.fragTotal) (hnew : f.fragIndex ∉ e.fragments)
    (hbytes : t.reassembly.bytes + f.payload.length ≤ RAW_UDP_MAX_REASSEMBLY_BYTES) :
    t.reassemble now f =
      (t.setEntry f.msgId (e.withFragment f.fragIndex f.payload) f.payload.length).deliverIfComplete
      f.msgId := by
  unfold reassemble
  rw [he]
  dsimp only
  rw [if_neg (by tauto)]
  exact storeFragment_new he hnew hbytes

/-- A fragment that came before, of a message that waits for others. -/
theorem reassemble_again {now : Nat} {f : Fragment} {e : ReassemblyEntry}
    (he : t.entry f.msgId = some e) (hlen : e.totalLen = f.totalLen)
    (htotal : e.fragTotal = f.fragTotal) (hold : f.fragIndex ∈ e.fragments)
    (hwaits : e.receivedCount < e.fragTotal) : t.reassemble now f = ([], t) := by
  unfold reassemble storeFragment deliverIfComplete
  rw [he]
  dsimp only
  rw [if_neg (by tauto), if_pos hold, if_pos hwaits]

end CliRawUdpTunnel

end VlanConnect
