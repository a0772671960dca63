/-
  VlanConnect/Server/Accounting.lean
  ==================================
  **The connection limits of the server.**

  The record of an address counts its sessions and its unclassified connections,
  in every state of every run, so the limits that are checked against the
  records hold of the connections themselves.

  A connection that opens a data channel has left the pending set while its
  handler runs and is still in the record.  `Counted` therefore has an offset
  per address, and what a handler keeps it keeps for every offset.
-/
import VlanConnect.Server.EventEffects
import VlanConnect.Server.RateLimit
import VlanConnect.Server.Safety
import VlanConnect.Lib.Census

namespace VlanConnect

open Census

theorem IpState.setBucket_clients (ip : IpState) (b : TokenBucket) (bucket : IpBucket) :
    (ip.setBucket b bucket).clients = ip.clients := by
  cases bucket <;> rfl

theorem IpState.setBucket_pending (ip : IpState) (b : TokenBucket) (bucket : IpBucket) :
    (ip.setBucket b bucket).pending = ip.pending := by
  cases bucket <;> rfl

namespace Server

variable (K : Crypto)

/-- The sessions of an address; its record is `record`, one that is absent
    counts nothing. -/
def sessionsFrom (s : Server) (ip : Nat) : Nat := population ClientSession.remoteIpv4 s.clients ip

def pendingFrom (s : Server) (ip : Nat) : Nat := population PendingConn.remoteIpv4 s.pending ip

structure Counted (limits : ServerLimits) (off : Nat → Nat) (s : Server) : Prop where
  config : s.limits = limits
  clients : ∀ ip, (s.record ip).clients = s.sessionsFrom ip
  pending : ∀ ip, (s.record ip).pending = s.pendingFrom ip + off ip
  maxClients : s.clients.size ≤ limits.maxClients
  maxPending : s.pending.size ≤ limits.maxPending
  maxClientsPerIp : ∀ ip, s.sessionsFrom ip ≤ limits.maxClientsPerIp
  maxPendingPerIp : ∀ ip, s.pendingFrom ip ≤ limits.maxPendingPerIp
  shortfalls : s.shortfalls = 0

/-! ### What changes no count -/

structure SameCounts (s s' : Server) : Prop where
  config : s'.limits = s.limits
  sessions : ∀ ip, s'.sessionsFrom ip = s.sessionsFrom ip
  size : s'.clients.size = s.clients.size
  pending : s'.pending = s.pending
  recordClients : ∀ ip, (s'.record ip).clients = (s.record ip).clients
  recordPending : ∀ ip, (s'.record ip).pending = (s.record ip).pending
  shortfalls : s'.shortfalls = s.shortfalls

theorem SameCounts.refl (s : Server) : SameCounts s s :=
  ⟨rfl, fun _ => rfl, rfl, rfl, fun _ => rfl, fun _ => rfl, rfl⟩

theorem SameCounts.trans {a b c : Server} (h₁ : SameCounts a b) (h₂ : SameCounts b c) :
    SameCounts a c where
  config := h₂.config.trans h₁.config
  sessions ip := (h₂.sessions ip).trans (h₁.sessions ip)
  size := h₂.size.trans h₁.size
  pending := h₂.pending.trans h₁.pending
  recordClients ip := (h₂.recordClients ip).trans (h₁.recordClients ip)
  recordPending ip := (h₂.recordPending ip).trans (h₁.recordPending ip)
  shortfalls := h₂.shortfalls.trans h₁.shortfalls

theorem Counted.same {limits : ServerLimits} {off : Nat → Nat} {s s' : Server}
    (h : Counted limits off s) (hs : SameCounts s s') : Counted limits off s' := by
  have hpending : ∀ ip, s'.pendingFrom ip = s.pendingFrom ip := by
    intro ip
    unfold pendingFrom
    rw [hs.pending]
  constructor
  · exact hs.config.trans h.config
  · intro ip
    rw [hs.recordClients, hs.sessions, h.clients]
  · intro ip
    rw [hs.recordPending, hpending, h.pending]
  · rw [hs.size]
    exact h.maxClients
  · rw [hs.pending]
    exact h.maxPending
  · intro ip
    rw [hs.sessions]
    exact h.maxClientsPerIp ip
  · intro ip
    rw [hpending]
    exact h.maxPendingPerIp ip
  · rw [hs.shortfalls, h.shortfalls]

/-- Only the fields of the sessions change that say nothing of where they are from. -/
theorem sameCounts_modify (s : Server) (fd : Fd) {f : ClientSession → ClientSession}
    (hf : ∀ c, (f c).remoteIpv4 = c.remoteIpv4) : SameCounts s (s.modify fd f) where
  config := rfl
  sessions := population_alter _ hf
  size := size_alter_map _ _ _
  pending := rfl
  recordClients _ := rfl
  recordPending _ := rfl
  shortfalls := rfl

/-- Everything that is counted is where it was. -/
theorem sameCounts_of_eq {s s' : Server} (hlimits : s'.limits = s.limits)
    (hclients : s'.clients = s.clients) (hpending : s'.pending = s.pending)
    (hips : s'.ipStates = s.ipStates) (hshort : s'.shortfalls = s.shortfalls) :
    SameCounts s s' := by
  have hrecord : ∀ ip, s'.record ip = s.record ip := by
    intro ip
    unfold record
    rw [hips]
  constructor
  · exact hlimits
  · intro ip
    unfold sessionsFrom
    rw [hclients]
  · rw [hclients]
  · exact hpending
  · intro ip
    rw [hrecord]
  · intro ip
    rw [hrecord]
  · exact hshort

theorem sameCounts_time (s : Server) : SameCounts s s.time.2 := by
  unfold time
  split
  · exact SameCounts.refl s
  · exact sameCounts_of_eq rfl rfl rfl rfl rfl

theorem sameCounts_random (s : Server) (size : Nat) :
    SameCounts s (s.secureRandomBytes size).2 := by
  unfold secureRandomBytes
  split
  · exact SameCounts.refl s
  · exact sameCounts_of_eq rfl rfl rfl rfl rfl

theorem record_insert (s : Server) (ip : Nat) (r : IpState) (ip' : Nat) :
    ({ s with ipStates := s.ipStates.insert ip r } : Server).record ip' =
      if ip' = ip then r else s.record ip' := by
  unfold record
  rw [Std.ExtTreeMap.getElem?_insert]
  by_cases h : ip' = ip
  · subst h
    simp
  · have hne : compare ip ip' ≠ .eq := fun heq => h (Nat.compare_eq_eq.mp heq).symm
    rw [if_neg hne, if_neg h]

/-- The record of an address is written with the counts it has. -/
theorem sameCounts_insert (s : Server) (ip : Nat) {r : IpState}
    (hclients : r.clients = (s.record ip).clients) (hpending : r.pending = (s.record ip).pending) :
    SameCounts s { s with ipStates := s.ipStates.insert ip r } := by
  constructor
  · rfl
  · exact fun _ => rfl
  · rfl
  · rfl
  · intro ip'
    rw [record_insert]
    split
    · next heq => rw [heq, hclients]
    · rfl
  · intro ip'
    rw [record_insert]
    split
    · next heq => rw [heq, hpending]
    · rfl
  · rfl

theorem sameCounts_take (s : Server) (ip : Nat) (bucket : IpBucket) (burst refillSeconds : Rat) :
    SameCounts s (s.takeIpToken ip bucket burst refillSeconds).2 := by
  unfold takeIpToken
  have htime := sameCounts_time s
  generalize s.time = read at htime ⊢
  obtain ⟨now, s₁⟩ := read
  apply htime.trans
  apply sameCounts_insert
  · exact IpState.setBucket_clients _ _ _
  · exact IpState.setBucket_pending _ _ _

theorem sameCounts_append (s : Server) (fd : Fd) (dataChannel : Bool) (first second : Bytes) :
    SameCounts s (s.appendSendBuffer fd dataChannel first second).2 := by
  unfold appendSendBuffer
  dsimp only
  split
  · split
    · exact SameCounts.refl s
    · exact sameCounts_modify s fd fun _ => rfl
  · have hput : SameCounts s { s.modify fd fun c => recordFrame (setSendBuf c dataChannel
        (sendBufOf c dataChannel ++ first ++ second)) dataChannel (first ++ second) with
        globalSendBytes := s.globalSendBytes + (first.length + second.length) } := by
      refine (sameCounts_modify s fd fun c => ?_).trans (sameCounts_of_eq rfl rfl rfl rfl rfl)
      cases dataChannel <;> rfl
    split
    · exact hput
    · exact hput.trans (sameCounts_modify _ fd fun _ => rfl)

theorem sameCounts_flush (s : Server) (fd : Fd) (dataChannel : Bool) :
    SameCounts s (s.flushBuffer fd dataChannel).2 := by
  unfold flushBuffer
  refine (sameCounts_modify s fd fun c => ?_).trans (sameCounts_of_eq rfl rfl rfl rfl rfl)
  cases dataChannel <;> rfl

theorem sameCounts_clear (s : Server) (fd : Fd) (dataChannel : Bool) :
    SameCounts s (s.clearSendBuffer fd dataChannel) := by
  unfold clearSendBuffer
  refine (sameCounts_modify s fd fun c => ?_).trans (sameCounts_of_eq rfl rfl rfl rfl rfl)
  cases dataChannel <;> rfl

theorem sameCounts : StateEffects SameCounts where
  refl := SameCounts.refl
  trans := SameCounts.trans
  modify s fd _ hf := sameCounts_modify s fd fun c => (hf c).remoteIpv4
  peerMap _ _ := sameCounts_of_eq rfl rfl rfl rfl rfl
  dataFdMap _ _ := sameCounts_of_eq rfl rfl rfl rfl rfl
  act _ _ := sameCounts_of_eq rfl rfl rfl rfl rfl
  close _ _ := sameCounts_of_eq rfl rfl rfl rfl rfl
  append s fd dataChannel _ _ _ _ := sameCounts_append s fd dataChannel _ _
  flush := sameCounts_flush
  clear := sameCounts_clear
  rooms _ _ := sameCounts_of_eq rfl rfl rfl rfl rfl
  free _ _ := sameCounts_of_eq rfl rfl rfl rfl rfl
  revision _ _ := sameCounts_of_eq rfl rfl rfl rfl rfl
  publish _ _ _ := sameCounts_of_eq rfl rfl rfl rfl rfl
  secureSessionMap _ _ := sameCounts_of_eq rfl rfl rfl rfl rfl
  nextPeerId _ _ := sameCounts_of_eq rfl rfl rfl rfl rfl
  control _ _ := sameCounts_of_eq rfl rfl rfl rfl rfl
  time := sameCounts_time
  random := sameCounts_random
  take := sameCounts_take

/-! ### Connections that go -/

section

variable {limits : ServerLimits} {off : Nat → Nat} {s : Server}

theorem sameCounts_countDown {s : Server} {counter : Nat} (h : counter ≠ 0) :
    SameCounts s (s.countDown counter) := by
  unfold countDown
  rw [if_neg h]
  exact SameCounts.refl s

/-- A session is taken out, and its address gives back what it counted. -/
theorem Counted.remove_session (h : Counted limits off s) {fd : Fd} {c : ClientSession}
    (hc : s.clients[fd]? = some c)
    {r : IpState} (hclients : r.clients + 1 = (s.record c.remoteIpv4).clients)
    (hpending : r.pending = (s.record c.remoteIpv4).pending) :
    Counted limits off { s with
      clients := s.clients.erase fd
      ipStates := s.ipStates.insert c.remoteIpv4 r } := by
  have hcount := population_erase ClientSession.remoteIpv4 hc
  have hle : ∀ ip, population ClientSession.remoteIpv4 (s.clients.erase fd) ip ≤
      s.sessionsFrom ip := by
    intro ip
    unfold sessionsFrom
    rw [hcount ip]
    exact Nat.le_add_right _ _
  constructor
  · exact h.config
  · intro ip
    have hip := h.clients ip
    unfold sessionsFrom at hip
    rw [hcount ip] at hip
    refine (congrArg IpState.clients (record_insert s c.remoteIpv4 r ip)).trans ?_
    show _ = population ClientSession.remoteIpv4 (s.clients.erase fd) ip
    split
    · next heq =>
      subst heq
      rw [if_pos rfl] at hip
      omega
    · next hne =>
      rw [if_neg (fun heq => hne heq.symm)] at hip
      exact hip
  · intro ip
    refine (congrArg IpState.pending (record_insert s c.remoteIpv4 r ip)).trans ?_
    show _ = s.pendingFrom ip + off ip
    rw [← h.pending ip]
    split
    · next heq => rw [heq, hpending]
    · rfl
  · exact (size_erase_le _ _).trans h.maxClients
  · exact h.maxPending
  · exact fun ip => (hle ip).trans (h.maxClientsPerIp ip)
  · exact h.maxPendingPerIp
  · exact h.shortfalls

/-- A connection leaves the pending set, and its address gives back what it
    counted, or only the offset takes note. -/
theorem Counted.remove_pending (h : Counted limits off s) {fd : Fd} {pc : PendingConn}
    (hp : s.pending[fd]? = some pc) :
    Counted limits (fun ip => off ip + if pc.remoteIpv4 = ip then 1 else 0)
    { s with pending := s.pending.erase fd } := by
  have hcount := population_erase PendingConn.remoteIpv4 hp
  constructor
  · exact h.config
  · exact h.clients
  · intro ip
    have hip := h.pending ip
    unfold pendingFrom at hip
    rw [hcount ip] at hip
    show (s.record ip).pending = population PendingConn.remoteIpv4 (s.pending.erase fd) ip + _
    omega
  · exact h.maxClients
  · exact (size_erase_le _ _).trans h.maxPending
  · exact h.maxClientsPerIp
  · intro ip
    have hle := h.maxPendingPerIp ip
    unfold pendingFrom at hle
    rw [hcount ip] at hle
    show population PendingConn.remoteIpv4 (s.pending.erase fd) ip ≤ _
    omega
  · exact h.shortfalls

/-- The record of the address catches up. -/
theorem Counted.settle {ip : Nat}
    (h : Counted limits (fun ip' => off ip' + if ip = ip' then 1 else 0) s) {r : IpState}
    (hclients : r.clients = (s.record ip).clients)
    (hpending : r.pending + 1 = (s.record ip).pending) :
    Counted limits off { s with ipStates := s.ipStates.insert ip r } := by
  constructor
  · exact h.config
  · intro ip'
    refine (congrArg IpState.clients (record_insert s ip r ip')).trans ?_
    show _ = s.sessionsFrom ip'
    rw [← h.clients ip']
    split
    · next heq => rw [heq, hclients]
    · rfl
  · intro ip'
    have hip := h.pending ip'
    refine (congrArg IpState.pending (record_insert s ip r ip')).trans ?_
    show _ = s.pendingFrom ip' + off ip'
    split
    · next heq =>
      subst heq
      rw [if_pos rfl] at hip
      omega
    · next hne =>
      rw [if_neg (fun heq => hne heq.symm)] at hip
      exact hip
  · exact h.maxClients
  · exact h.maxPending
  · exact h.maxClientsPerIp
  · exact h.maxPendingPerIp
  · exact h.shortfalls

/-- The address of a session or of a connection has a record. -/
theorem record_of_pos {ip : Nat} (h : 0 < (s.record ip).clients ∨ 0 < (s.record ip).pending) :
    s.ipStates[ip]? = some (s.record ip) := by
  unfold record at h ⊢
  cases hip : s.ipStates[ip]? with
  | none =>
    rw [hip] at h
    rcases h with h | h
    · exact absurd h (Nat.lt_irrefl 0)
    · exact absurd h (Nat.lt_irrefl 0)
  | some state => rfl

theorem Counted.leave (h : Counted limits off s) {fd : Fd} (hfd : fd ∈ s.clients) :
    Counted limits off (s.leave fd) := by
  unfold Server.leave
  dsimp only
  have hcleared := (sameCounts_clear s fd false).trans (sameCounts_clear _ fd true)
  have hmem : fd ∈ ((s.clearSendBuffer fd false).clearSendBuffer fd true).clients :=
    (sameClients.clear _ fd true fd).mpr ((sameClients.clear s fd false fd).mpr hfd)
  have h₁ := h.same hcleared
  generalize (s.clearSendBuffer fd false).clearSendBuffer fd true = s₁ at hmem h₁ ⊢
  obtain ⟨c, hc⟩ := exists_client hmem
  have hone : 1 ≤ (s₁.record c.remoteIpv4).clients := by
    rw [h₁.clients, sessionsFrom, population_erase ClientSession.remoteIpv4 hc, if_pos rfl]
    omega
  have hrecord := record_of_pos (Or.inl hone)
  unfold releaseClientIp
  dsimp only
  rw [client_eq hc, hrecord]
  dsimp only
  have htime := (sameCounts_countDown (s := s₁) (Nat.ne_of_gt hone)).trans (sameCounts_time _)
  have hidle := (countDown_idle s₁ (s₁.record c.remoteIpv4).clients).trans (time_idle _)
  generalize (s₁.countDown (s₁.record c.remoteIpv4).clients).time = read at htime hidle ⊢
  obtain ⟨now, s₂⟩ := read
  dsimp only at htime hidle ⊢
  have hc₂ : s₂.clients[fd]? = some c := by
    rw [hidle.clients]
    exact hc
  have hremoved := (h₁.same htime).remove_session hc₂
    (r := { s₁.record c.remoteIpv4 with
      clients := (s₁.record c.remoteIpv4).clients - 1, lastActivity := now })
    (by rw [htime.recordClients]; exact Nat.sub_add_cancel hone) (htime.recordPending _).symm
  refine hremoved.same (sameCounts_of_eq rfl ?_ rfl rfl rfl)
  exact erase_alter _ _ _

theorem Counted.removePending (h : Counted limits off s) (fd : Fd) (closeFd : Bool) :
    Counted limits off (s.removePending fd closeFd) := by
  unfold Server.removePending
  split
  · exact h
  next pc hp =>
  have hout := h.remove_pending hp
  have hone : 1 ≤ (s.record pc.remoteIpv4).pending := by
    rw [h.pending, pendingFrom, population_erase PendingConn.remoteIpv4 hp, if_pos rfl]
    omega
  have hrecord := record_of_pos (Or.inr hone)
  dsimp only
  rw [hrecord]
  dsimp only
  have htime := (sameCounts_countDown (s := s) (Nat.ne_of_gt hone)).trans (sameCounts_time _)
  generalize (s.countDown (s.record pc.remoteIpv4).pending).time = read at htime ⊢
  obtain ⟨now, s₁⟩ := read
  dsimp only at htime ⊢
  have hp₁ : s₁.pending[fd]? = some pc := by
    rw [htime.pending]
    exact hp
  have hsettled := ((h.same htime).remove_pending hp₁).settle
    (r := { s.record pc.remoteIpv4 with
      pending := (s.record pc.remoteIpv4).pending - 1, lastActivity := now })
    (htime.recordClients _).symm (by
      refine (Nat.sub_add_cancel hone).trans ?_
      exact (htime.recordPending _).symm)
  split
  · exact hsettled.same (sameCounts_of_eq rfl rfl rfl rfl rfl)
  · exact hsettled

/-- Only records that count nothing are forgotten. -/
theorem Counted.cleanupIpStates (h : Counted limits off s) (now : Nat) :
    Counted limits off (s.cleanupIpStates now) := by
  refine h.same ⟨rfl, fun _ => rfl, rfl, rfl, fun ip => ?_, fun ip => ?_, rfl⟩
  all_goals
    unfold Server.cleanupIpStates record
    rw [Std.ExtTreeMap.getElem?_filter]
    cases hip : s.ipStates[ip]? with
    | none => rfl
    | some state =>
      simp only [Option.pfilter_eq_filter, Option.filter_some]
      split
      · rfl
      · next hgone =>
        simp only [Bool.not_eq_true', decide_eq_false_iff_not, not_not] at hgone
        simp [hgone.1, hgone.2.1]

end

theorem counted :
    EventEffects fun s s' => ∀ limits off, Counted limits off s → Counted limits off s' where
  toStateEffects := sameCounts.weaken (fun hs _ _ h => h.same hs) fun h₁ h₂ limits off h =>
    h₂ limits off (h₁ limits off h)
  leave _ _ hfd _ _ h := h.leave hfd
  removePending _ fd closeFd _ _ h := h.removePending fd closeFd
  cleanupIpStates _ now _ _ h := h.cleanupIpStates now

/-! ### Connections that come -/

section

variable {limits : ServerLimits} {off : Nat → Nat} {s : Server}

theorem countDown_eq {counter : Nat} (h : 1 ≤ counter) : s.countDown counter = s := by
  unfold countDown
  rw [if_neg (Nat.ne_of_gt h)]

theorem Counted.add_pending (h : Counted limits off s) {fd : Fd} (hnew : s.pending[fd]? = none)
    {p : PendingConn}
    (hsize : s.pending.size < limits.maxPending)
    (hper : s.pendingFrom p.remoteIpv4 < limits.maxPendingPerIp) :
    Counted limits off { s with
      pending := s.pending.insert fd p
      ipStates := s.ipStates.insert p.remoteIpv4
        { s.record p.remoteIpv4 with pending := (s.record p.remoteIpv4).pending + 1 } } := by
  have hcount := population_insert_new PendingConn.remoteIpv4 hnew p
  have hrecord := record_insert s p.remoteIpv4
    { s.record p.remoteIpv4 with pending := (s.record p.remoteIpv4).pending + 1 }
  constructor
  · exact h.config
  · intro ip
    refine (congrArg IpState.clients (hrecord ip)).trans ?_
    refine Eq.trans ?_ (h.clients ip)
    split
    · next heq => rw [heq]
    · rfl
  · intro ip
    have hip := h.pending ip
    refine (congrArg IpState.pending (hrecord ip)).trans ?_
    show _ = population PendingConn.remoteIpv4 (s.pending.insert fd p) ip + off ip
    rw [hcount ip]
    show _ = s.pendingFrom ip + _ + off ip
    split
    · next heq =>
      rw [if_pos heq.symm]
      subst heq
      show (s.record p.remoteIpv4).pending + 1 = _
      omega
    · next hne =>
      rw [if_neg (fun heq => hne heq.symm)]
      exact hip
  · exact h.maxClients
  · show (s.pending.insert fd p).size ≤ limits.maxPending
    rw [Std.ExtTreeMap.size_insert]
    split
    · omega
    · omega
  · exact h.maxClientsPerIp
  · intro ip
    have hip := h.maxPendingPerIp ip
    show population PendingConn.remoteIpv4 (s.pending.insert fd p) ip ≤ _
    rw [hcount ip]
    show s.pendingFrom ip + _ ≤ _
    split
    · next heq =>
      subst heq
      exact hper
    · exact hip
  · exact h.shortfalls

/-- A connection that has left the pending set becomes a session. -/
theorem Counted.add_session {c : ClientSession}
    (h : Counted limits (fun ip => off ip + if c.remoteIpv4 = ip then 1 else 0) s) {fd : Fd}
    (hnew : s.clients[fd]? = none) (hsize : s.clients.size < limits.maxClients)
    (hper : s.sessionsFrom c.remoteIpv4 < limits.maxClientsPerIp) {r : IpState}
    (hclients : r.clients = (s.record c.remoteIpv4).clients + 1)
    (hpending : r.pending + 1 = (s.record c.remoteIpv4).pending) :
    Counted limits off { s with
      clients := s.clients.insert fd c
      ipStates := s.ipStates.insert c.remoteIpv4 r } := by
  have hcount := population_insert_new ClientSession.remoteIpv4 hnew c
  have hrecord := record_insert s c.remoteIpv4 r
  constructor
  · exact h.config
  · intro ip
    have hip := h.clients ip
    refine (congrArg IpState.clients (hrecord ip)).trans ?_
    show _ = population ClientSession.remoteIpv4 (s.clients.insert fd c) ip
    rw [hcount ip]
    show _ = s.sessionsFrom ip + _
    split
    · next heq =>
      rw [if_pos heq.symm]
      subst heq
      omega
    · next hne =>
      rw [if_neg (fun heq => hne heq.symm)]
      exact hip
  · intro ip
    have hip := h.pending ip
    refine (congrArg IpState.pending (hrecord ip)).trans ?_
    show _ = s.pendingFrom ip + off ip
    split
    · next heq =>
      subst heq
      rw [if_pos rfl] at hip
      omega
    · next hne =>
      rw [if_neg (fun heq => hne heq.symm)] at hip
      exact hip
  · show (s.clients.insert fd c).size ≤ limits.maxClients
    rw [Std.ExtTreeMap.size_insert]
    split
    · omega
    · omega
  · exact h.maxPending
  · intro ip
    have hip := h.maxClientsPerIp ip
    show population ClientSession.remoteIpv4 (s.clients.insert fd c) ip ≤ _
    rw [hcount ip]
    show s.sessionsFrom ip + _ ≤ _
    split
    · next heq =>
      subst heq
      exact hper
    · exact hip
  · exact h.maxPendingPerIp
  · exact h.shortfalls

theorem Counted.handleTcpAccept (h : Counted limits (fun _ => 0) s) {fd : Fd}
    (hnew : s.pending[fd]? = none) (remoteIp : Nat) :
    Counted limits (fun _ => 0) (s.handleTcpAccept fd remoteIp) := by
  unfold Server.handleTcpAccept
  have hopen : Counted limits (fun _ => 0) { s with openFds := s.openFds.insert fd } :=
    h.same (sameCounts_of_eq rfl rfl rfl rfl rfl)
  have hnew₁ : ({ s with openFds := s.openFds.insert fd } : Server).pending[fd]? = none := hnew
  generalize ({ s with openFds := s.openFds.insert fd } : Server) = s₁ at hopen hnew₁ ⊢
  dsimp only
  have htime := sameCounts_time s₁
  generalize s₁.time = read at htime ⊢
  obtain ⟨now, s₂⟩ := read
  dsimp only at htime ⊢
  have hseen := htime.trans (sameCounts_insert s₂ remoteIp
    (r := { (s₂.ipStates[remoteIp]?).getD {} with lastActivity := now }) rfl rfl)
  have h₂ := hopen.same htime
  have h₃ := hopen.same hseen
  split
  · exact h₃.same (sameCounts.close _ fd)
  next hroom =>
  rw [not_or, Nat.not_le, Nat.not_le] at hroom
  have hsize₃ : s₂.pending.size < limits.maxPending := by
    rw [← h₂.config]
    exact hroom.1
  have hper₃ : s₂.pendingFrom remoteIp < limits.maxPendingPerIp := by
    have hcount : (s₂.record remoteIp).pending = s₂.pendingFrom remoteIp := h₂.pending remoteIp
    rw [← h₂.config, ← hcount]
    exact hroom.2
  have hnew₃ : s₂.pending[fd]? = none := by
    rw [htime.pending]
    exact hnew₁
  generalize hs₃ : ({ s₂ with
    ipStates := s₂.ipStates.insert remoteIp
      { (s₂.ipStates[remoteIp]?).getD {} with lastActivity := now } } : Server) = s₃ at h₃ ⊢
  have hpending : s₃.pending = s₂.pending := by
    rw [← hs₃]
  have htake := sameCounts_take s₃ remoteIp .accepts 16 1
  generalize s₃.takeIpToken remoteIp .accepts 16 1 = taken at htake ⊢
  obtain ⟨ok, s₄⟩ := taken
  dsimp only at htake ⊢
  split
  · exact (h₃.same htake).same (sameCounts.close s₄ fd)
  have htaken := htake.trans (sameCounts_time s₄)
  generalize s₄.time = read at htaken ⊢
  obtain ⟨now', s₅⟩ := read
  dsimp only at htaken ⊢
  have h₅ := h₃.same htaken
  have hsame : s₅.pending = s₂.pending := htaken.pending.trans hpending
  have hnew₅ : s₅.pending[fd]? = none := by
    rw [hsame]
    exact hnew₃
  have hsize : s₅.pending.size < limits.maxPending := by
    rw [hsame]
    exact hsize₃
  have hper : s₅.pendingFrom remoteIp < limits.maxPendingPerIp := by
    unfold pendingFrom
    rw [hsame]
    exact hper₃
  exact h₅.add_pending hnew₅ (p := { fd := fd, remoteIpv4 := remoteIp, created := now' }) hsize hper

/-! ### Classification -/

theorem Counted.promoteDataChannel (h : Counted limits off s) {fd : Fd} {pc : PendingConn}
    (hp : s.pending[fd]? = some pc) (payload trailing : Bytes) :
    Counted limits off (s.promoteDataChannel K fd pc.remoteIpv4 payload trailing) := by
  unfold Server.promoteDataChannel
  dsimp only
  -- While the handler runs the offset stands for the connection.
  have hinit := counted.onSecureDataChannelInit K { s with
    pending := s.pending.erase fd } fd payload limits _
    (h.remove_pending hp)
  generalize Server.onSecureDataChannelInit K { s with pending := s.pending.erase fd } fd payload =
    s₁ at hinit ⊢
  have hone : 1 ≤ (s₁.record pc.remoteIpv4).pending := by
    rw [hinit.pending, if_pos rfl]
    omega
  rw [record_of_pos (Or.inr hone)]
  dsimp only
  rw [countDown_eq hone]
  have hsettled := hinit.settle (r := { s₁.record pc.remoteIpv4 with
    pending := (s₁.record pc.remoteIpv4).pending - 1 }) rfl (Nat.sub_add_cancel hone)
  have hfind := sameCounts.findClientByDataFd ({ s₁ with
    ipStates := s₁.ipStates.insert pc.remoteIpv4 { s₁.record pc.remoteIpv4 with
      pending := (s₁.record pc.remoteIpv4).pending - 1 } } : Server) fd
  generalize ({ s₁ with
    ipStates := s₁.ipStates.insert pc.remoteIpv4 { s₁.record pc.remoteIpv4 with
      pending := (s₁.record pc.remoteIpv4).pending - 1 } } : Server).findClientByDataFd fd =
        found at hfind ⊢
  obtain ⟨dataClient, s₂⟩ := found
  dsimp only at hfind ⊢
  have h₂ := hsettled.same hfind
  split
  · split
    · exact h₂
    · refine h₂.same ((sameCounts_modify s₂ _ fun _ => ?_).trans
        (sameCounts_of_eq rfl rfl rfl rfl rfl))
      exact rfl
  · exact h₂

/-- An unclassified connection becomes a session of the same address. -/
theorem Counted.classify (h : Counted limits off s) {fd : Fd} {pc : PendingConn}
    (hp : s.pending[fd]? = some pc)
    (hnew : s.clients[fd]? = none) (hsize : s.clients.size < limits.maxClients)
    (hper : s.sessionsFrom pc.remoteIpv4 < limits.maxClientsPerIp) {c : ClientSession}
    (hc : c.remoteIpv4 = pc.remoteIpv4) {r : IpState}
    (hclients : r.clients = (s.record pc.remoteIpv4).clients + 1)
    (hpending : r.pending + 1 = (s.record pc.remoteIpv4).pending) {control : Control} :
    Counted limits off { s with
      clients := s.clients.insert fd c
      ipStates := s.ipStates.insert pc.remoteIpv4 r
      pending := s.pending.erase fd
      control := control } := by
  have hout := h.remove_pending hp
  rw [← hc] at hout hper hclients hpending ⊢
  have hadd := hout.add_session hnew hsize hper hclients hpending
  exact hadd.same (sameCounts_of_eq rfl rfl rfl rfl rfl)

theorem Counted.promoteSession (h : Counted limits off s) {fd : Fd} {pc : PendingConn}
    (hp : s.pending[fd]? = some pc) (hnew : s.clients[fd]? = none) (recvBuf : Bytes) :
    Counted limits off (s.promoteSession fd pc.remoteIpv4 recvBuf) := by
  unfold Server.promoteSession
  dsimp only
  have hone : 1 ≤ (s.record pc.remoteIpv4).pending := by
    rw [h.pending, pendingFrom, population_erase PendingConn.remoteIpv4 hp, if_pos rfl]
    omega
  have hwritten := sameCounts_insert s pc.remoteIpv4 (r := s.record pc.remoteIpv4) rfl rfl
  split
  · exact (h.same hwritten).removePending fd true
  next hroom =>
  rw [not_or, Nat.not_le, Nat.not_le] at hroom
  have hsize : s.clients.size < limits.maxClients := by
    rw [← h.config]
    exact hroom.1
  have hper : s.sessionsFrom pc.remoteIpv4 < limits.maxClientsPerIp := by
    rw [← h.config, ← h.clients]
    exact hroom.2
  have hcountDown : ∀ s' : Server, s'.countDown (s.record pc.remoteIpv4).pending = s' :=
    fun s' => countDown_eq hone
  unfold record at hcountDown
  rw [hcountDown]
  have htime := hwritten.trans ((sameCounts_time _).trans (sameCounts_time _))
  have hidle := (time_idle { s with
    ipStates := s.ipStates.insert pc.remoteIpv4 (s.record pc.remoteIpv4) }).trans (time_idle _)
  refine (h.same htime).classify ?_ ?_ ?_ ?_ rfl ?_ ?_
  · rw [htime.pending]
    exact hp
  · rw [hidle.clients]
    exact hnew
  · rw [htime.size]
    exact hsize
  · rw [htime.sessions]
    exact hper
  · rw [htime.recordClients]
    rfl
  · rw [htime.recordPending]
    exact Nat.sub_add_cancel hone

theorem Counted.handlePendingData (h : Counted limits off s)
    (hapart : ∀ fd : Fd, fd ∈ s.pending → s.clients[fd]? = none) (fd : Fd) (chunk : Bytes) :
    Counted limits off (s.handlePendingData K fd chunk) := by
  unfold Server.handlePendingData
  split
  · exact h
  next pc hp =>
  have hnew : s.clients[fd]? = none := by
    apply hapart
    rw [Std.ExtTreeMap.mem_iff_isSome_getElem?, hp]
    rfl
  split
  · exact h.removePending fd true
  dsimp only
  have hbuf : Counted limits off { s with
      pending := s.pending.insert fd { pc with recvBuf := pc.recvBuf ++ chunk } } := by
    have hcount := population_insert_same PendingConn.remoteIpv4 hp
      (d := { pc with recvBuf := pc.recvBuf ++ chunk }) rfl
    have hmem : s.pending.contains fd = true := by
      rw [Std.ExtTreeMap.contains_eq_isSome_getElem?, hp]
      rfl
    constructor
    · exact h.config
    · exact h.clients
    · intro ip
      exact (h.pending ip).trans (congrArg (· + off ip) (hcount ip).symm)
    · exact h.maxClients
    · show (s.pending.insert fd _).size ≤ _
      rw [Std.ExtTreeMap.size_insert, if_pos hmem]
      exact h.maxPending
    · exact h.maxClientsPerIp
    · intro ip
      exact (hcount ip).trans_le (h.maxPendingPerIp ip)
    · exact h.shortfalls
  have hp₁ : (s.pending.insert fd { pc with recvBuf := pc.recvBuf ++ chunk })[fd]? =
      some { pc with recvBuf := pc.recvBuf ++ chunk } := Std.ExtTreeMap.getElem?_insert_self
  split
  · exact hbuf
  · exact hbuf.removePending fd true
  split
  · exact hbuf.promoteDataChannel K hp₁ _ _
  · exact hbuf.promoteSession hp₁ hnew _

end

/-! ### Runs -/

variable {limits : ServerLimits} {hash salt : Bytes} {s : Server}

/-- No unclassified connection is a session, and none has the descriptor that
    `accept` returns. -/
theorem Reachable.pending_apart (h : Reachable K limits hash salt s) {fd : Fd}
    (hp : fd ∈ s.pending) :
    s.clients[fd]? = none ∧ fd ∈ s.openFds := by
  have hindexed := (h.sound K).good.inv.indexed
  refine ⟨?_, hindexed.pending_fd hp⟩
  cases hc : s.clients[fd]? with
  | none => rfl
  | some c => exact absurd hp (hindexed.session_fd (sessions_registry hc)).2

theorem counted_start : Counted limits (fun _ => 0) (start limits hash salt) := by
  have hclients : ∀ ip, (start limits hash salt).sessionsFrom ip = 0 := population_empty _
  have hpending : ∀ ip, (start limits hash salt).pendingFrom ip = 0 := population_empty _
  have hrecord : ∀ ip, (start limits hash salt).record ip = {} := by
    intro ip
    unfold record start
    dsimp only
    rw [Std.ExtTreeMap.getElem?_empty]
    rfl
  constructor
  · rfl
  · intro ip
    rw [hrecord, hclients]
  · intro ip
    rw [hrecord, hpending]
  · exact Nat.zero_le _
  · exact Nat.zero_le _
  · intro ip
    rw [hclients]
    exact Nat.zero_le _
  · intro ip
    rw [hpending]
    exact Nat.zero_le _
  · rfl

theorem Reachable.counted (h : Reachable K limits hash salt s) : Counted limits (fun _ => 0) s := by
  induction h with
  | start => exact counted_start
  | @step s hs env e he ih =>
    have hprepared : Counted limits (fun _ => 0) (s.prepare env) :=
      ih.same (sameCounts_of_eq rfl rfl rfl rfl rfl)
    cases e with
    | accept fd remoteIp =>
      refine hprepared.handleTcpAccept ?_ remoteIp
      show s.pending[fd]? = none
      cases hp : s.pending[fd]? with
      | none => rfl
      | some pc =>
        have hmem : fd ∈ s.pending := by
          rw [Std.ExtTreeMap.mem_iff_isSome_getElem?, hp]
          rfl
        exact absurd (hs.pending_apart K hmem).2 he.2
    | readable fd chunk =>
      by_cases hp : fd ∈ s.pending
      · show Counted limits _ ((s.prepare env).readable K fd chunk)
        have hp' : fd ∈ (s.prepare env).pending := hp
        unfold readable
        rw [if_pos hp']
        exact hprepared.handlePendingData K (fun g hg => (hs.pending_apart K hg).1) fd chunk
      · exact Server.counted.handle K _ (by simp)
          (by rintro g c heq; cases heq; exact hp) limits _ hprepared
    | datagram sender data => exact Server.counted.handle K _ (by simp) (by simp) limits _ hprepared
    | writable fd => exact Server.counted.handle K _ (by simp) (by simp) limits _ hprepared
    | hangup fd => exact Server.counted.handle K _ (by simp) (by simp) limits _ hprepared
    | timer => exact Server.counted.handle K _ (by simp) (by simp) limits _ hprepared
    | resume => exact Server.counted.handle K _ (by simp) (by simp) limits _ hprepared

/-- **Connection limits.**  In every state of every run the record of an address
    holds its sessions and its unclassified connections, the limits hold, and no
    counter was ever taken below zero. -/
theorem connection_limits (h : Reachable K limits hash salt s) :
    (∀ ip, (s.record ip).clients = s.sessionsFrom ip ∧ (s.record ip).pending = s.pendingFrom ip ∧
      s.sessionsFrom ip ≤ limits.maxClientsPerIp ∧ s.pendingFrom ip ≤ limits.maxPendingPerIp) ∧
      s.clients.size ≤ limits.maxClients ∧ s.pending.size ≤ limits.maxPending ∧
      s.shortfalls = 0 := by
  have hcounted := h.counted K
  refine ⟨fun ip => ?_, hcounted.maxClients, hcounted.maxPending, hcounted.shortfalls⟩
  exact ⟨hcounted.clients ip, hcounted.pending ip, hcounted.maxClientsPerIp ip,
    hcounted.maxPendingPerIp ip⟩

/-- Alice and Robert are in a room, a third connection says nothing, and Alice's
    connection is lost. -/
def Sample.arrivals : List (Env × Event) := party ++ [(quiet, .accept 8 1), (quiet, .hangup 5)]

set_option maxRecDepth 100000 in
theorem arrivals_played : (played Sample.arrivals).any (fun s =>
    decide (s.sessionsFrom 1 = 1 ∧ s.pendingFrom 1 = 1)) = true := by
  decide +kernel

theorem connection_limits_arrivals : ∃ s, Reachable .sample {} Sample.authHash Sample.authSalt s ∧
    s.sessionsFrom 1 = 1 ∧ s.pendingFrom 1 = 1 ∧ (s.record 1).clients = 1 ∧
    (s.record 1).pending = 1 ∧
      s.shortfalls = 0 := by
  obtain ⟨s, hs, hgood⟩ := reachable_of_played arrivals_played
  obtain ⟨hsessions, hpending⟩ := of_decide_eq_true hgood
  obtain ⟨hip, _, _, hshort⟩ := connection_limits .sample hs
  obtain ⟨hclients, hunclassified, _, _⟩ := hip 1
  exact ⟨s, hs, hsessions, hpending, hclients.trans hsessions, hunclassified.trans hpending, hshort⟩

end Server

end VlanConnect
