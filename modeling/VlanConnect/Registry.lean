/-
  VlanConnect/Registry.lean
  =========================
  **The registry: what the server keeps about sessions and rooms.**

  An abstract machine over the part of the server that its identities rest on:
  the sessions with their state, the leases of every room, the three indexes,
  the free peer ids and the descriptors.  A step is one change that the
  handlers make as a whole, together with the notices that go with it; what
  sending does to the other sessions is left open within `Delivered`.

  The machine says nothing about buffers, ciphers, clocks or budgets.  That
  the server is an instance of it is the subject of `Server/Refinement`.
-/
import VlanConnect.Server.Lease
import Mathlib.Data.Option.Basic
import Mathlib.Data.Set.Insert
import Mathlib.Logic.Function.Basic
import Mathlib.Logic.Relation

namespace VlanConnect

namespace Registry

abbrev Msg := UInt8 × Bytes

/-- The messages that change or announce a membership. -/
def isMembership (msgType : UInt8) : Bool :=
  [MSG_ROOM_CREATED, MSG_JOIN_RESP, MSG_PEER_JOINED, MSG_PEER_LEFT,
    MSG_PEER_RESUMED].contains msgType

/-! ### Sessions -/

/-- What the two sides exchanged before the login. -/
structure Transcript where
  clientNonce : Bytes
  serverNonce : Bytes
  clientPubKey : Bytes
  serverPubKey : Bytes
  secureMaster : Bytes
  authFrame : Option (Bytes × Bytes)

structure Sess where
  tcpFd : Fd
  dataFd : Option Fd
  peerId : Nat
  virtualIP : Nat
  roomId : Nat
  alive : Bool
  state : SessionState
  serverAuthOk : Bool
  secureEnabled : Bool
  secureSessionId : Nat
  resumeRoomId : Nat
  resumePeerId : Nat
  resumeToken : Bytes
  pendingJoinRoomId : Nat
  authChallenge : Bytes
  name : Bytes
  transcript : Transcript
  sent : List Msg
  rejected : List Msg

def noToken : Bytes := List.replicate RECONNECT_TOKEN_SIZE 0

namespace Sess

/-- Back to the lobby. -/
def exit (c : Sess) : Sess :=
  { c with
    roomId := 0, virtualIP := 0, resumeRoomId := 0, resumePeerId := 0, resumeToken := noToken
    state := .loggedIn }

/-- No identity any more, waiting for the close. -/
def loggedOut (c : Sess) : Sess :=
  { c.exit with
    peerId := 0, state := .closing, pendingJoinRoomId := 0, authChallenge := List.replicate 32 0 }

def enter (c : Sess) (roomId virtualIP : Nat) (token : Bytes) : Sess :=
  { c with
    virtualIP := virtualIP, roomId := roomId, resumeRoomId := roomId, resumePeerId := c.peerId
    resumeToken := token, state := .inRoom }

/-- The room whose lease the session holds or waits for. -/
def home (c : Sess) : Nat :=
  if c.roomId ≠ 0 then c.roomId else if c.state = .resumePending then c.resumeRoomId else 0

/-- The lease is the session's own: it is in the room, or may resume there. -/
def Holds (c : Sess) (roomId : Nat) (l : RoomLease) : Prop :=
  c.state = .inRoom ∧ c.roomId = roomId ∨
    c.state = .resumePending ∧ c.resumeRoomId = roomId ∧ c.resumeToken = l.token

/-- `ext` was put on the session's stream and `lost` was turned away; the
    session may have died. -/
structure Delivered (ext lost : List Msg) (c c' : Sess) : Prop where
  same : c' = { c with alive := c'.alive, sent := c.sent ++ ext, rejected := c.rejected ++ lost }
  alive : c'.alive = true → c.alive = true

/-- Only messages that do not concern memberships were sent. -/
def Quiet (c c' : Sess) : Prop :=
  ∃ ext lost, Delivered ext lost c c' ∧ ∀ m ∈ ext, isMembership m.1 = false

/-- The notice `m` was sent: it is on the stream, or was turned away, or the
    session is dead. -/
def Heard (m : Msg) (c c' : Sess) : Prop :=
  Delivered [m] [] c c' ∨ Delivered [] [m] c c' ∨ Delivered [] [] c c' ∧ c'.alive = false

theorem Delivered.refl (c : Sess) : Delivered [] [] c c := ⟨by simp, id⟩

theorem Delivered.trans {ext ext' lost lost' : List Msg} {a b c : Sess} (h : Delivered ext lost a b)
    (h' : Delivered ext' lost' b c) : Delivered (ext ++ ext') (lost ++ lost') a c where
  same := by
    have e := h'.same
    rw [h.same] at e
    simpa only [List.append_assoc] using e
  alive hc := h.alive (h'.alive hc)

theorem Quiet.refl (c : Sess) : Quiet c c := ⟨[], [], Delivered.refl c, by simp⟩

theorem Quiet.trans {a b c : Sess} (h : Quiet a b) (h' : Quiet b c) : Quiet a c := by
  obtain ⟨ext, lost, hd, hq⟩ := h
  obtain ⟨ext', lost', hd', hq'⟩ := h'
  refine ⟨ext ++ ext', lost ++ lost', hd.trans hd', fun m hm => ?_⟩
  rcases List.mem_append.mp hm with hm | hm
  · exact hq m hm
  · exact hq' m hm

end Sess

/-! ### Leases -/

def dropLease (peerId : Nat) (ls : List RoomLease) : List RoomLease :=
  ls.filter fun l => l.peerId != peerId

def mapLease (peerId : Nat) (f : RoomLease → RoomLease) (ls : List RoomLease) : List RoomLease :=
  ls.map fun l => if l.peerId = peerId then f l else l

/-- The change of a lease keeps whose it is. -/
structure KeepsLease (f : RoomLease → RoomLease) : Prop where
  peerId : ∀ l, (f l).peerId = l.peerId
  virtualIP : ∀ l, (f l).virtualIP = l.virtualIP
  name : ∀ l, (f l).name = l.name
  token : ∀ l, (f l).token = l.token
  waits : ∀ l, (l.online = false → 0 < l.expiresAt) → (f l).online = false → 0 < (f l).expiresAt

/-- The lease can be written to a message, and has a date while it is offline. -/
def Sized (l : RoomLease) : Prop :=
  l.virtualIP < 2 ^ 32 ∧ l.name.length < 2 ^ 16 ∧ (l.online = false → 0 < l.expiresAt)

/-! ### Notices -/

/-- The message tells that the session is in a new room. -/
def SaysCreated (m : Msg) : Prop := m.1 = MSG_ROOM_CREATED

/-- The message tells that the session is in a room with these leases. -/
def SaysJoined (m : Msg) (ls : List RoomLease) : Prop :=
  ∃ room virtualIP token, room.leases = ls ∧
    m = (MSG_JOIN_RESP, Server.joinResponse room virtualIP token)

/-- The message tells that the holder of the lease is there. -/
def SaysThere (m : Msg) (l : RoomLease) : Prop :=
  (m.1 = MSG_PEER_JOINED ∨ m.1 = MSG_PEER_RESUMED) ∧ m.2 = Server.writeMember l

/-- The message tells that the peer left. -/
def SaysLeft (m : Msg) (peerId : Nat) : Prop := m = (MSG_PEER_LEFT, ByteBuffer.writeU32 peerId)

/-- A notice to a room, and the sessions it was meant for. -/
structure Notice where
  roomId : Nat
  peerId : Nat
  msg : Msg
  audience : Set Fd

/-! ### The machine -/

@[ext]
structure Reg where
  sessions : Fd → Option Sess
  rooms : Nat → Option (List RoomLease)
  peerMap : Nat → Option Fd
  secureSessionMap : Nat → Option Fd
  dataFdMap : Fd → Option Fd
  next : Nat
  free : Set Nat
  pending : Set Fd
  openFds : Set Fd
  notices : List Notice
  /-- The messages whose handlers were called. -/
  calls : List (Fd × Msg)

namespace Reg

def setSession (r : Reg) (fd : Fd) (c : Sess) : Reg :=
  { r with sessions := Function.update r.sessions fd (some c) }

def setRoom (r : Reg) (roomId : Nat) (ls : List RoomLease) : Reg :=
  { r with rooms := Function.update r.rooms roomId (some ls) }

/-- The room exists and holds the lease. -/
def Lease (r : Reg) (roomId : Nat) (l : RoomLease) : Prop := ∃ ls, r.rooms roomId = some ls ∧ l ∈ ls

/-- A lease with this id is in the room. -/
def HasLease (r : Reg) (roomId peerId : Nat) : Prop := ∃ l, r.Lease roomId l ∧ l.peerId = peerId

def NoLease (r : Reg) (peerId : Nat) : Prop := ∀ roomId, ¬ r.HasLease roomId peerId

/-- Some session has this id. -/
def Owned (r : Reg) (peerId : Nat) : Prop := ∃ fd c, r.sessions fd = some c ∧ c.peerId = peerId

/-- The session with this id is alive and in the room. -/
def LiveIn (r : Reg) (roomId peerId : Nat) : Prop :=
  ∃ fd c, r.sessions fd = some c ∧ c.peerId = peerId ∧ c.alive = true ∧ c.state = .inRoom ∧
    c.roomId = roomId

/-- Nobody will give the id back: the session was in a room, or was to resume
    in one, and the lease is gone. -/
def Orphan (r : Reg) (c : Sess) : Prop :=
  c.peerId ≠ 0 ∧ ¬ r.HasLease c.home c.peerId ∧ ¬ (c.roomId = 0 ∧ r.rooms c.home = none)

/-- All sessions after messages that do not concern memberships. -/
def QuietSessions (σ σ' : Fd → Option Sess) : Prop := ∀ fd, Option.Rel Sess.Quiet (σ fd) (σ' fd)

/-- The session gets the notices to a room about the peer. -/
def Hears (r : Reg) (roomId peerId : Nat) (c : Sess) : Prop :=
  c.alive = true ∧ c.peerId ≠ peerId ∧ r.HasLease roomId c.peerId

/-- All sessions after the notice `m` to the room: the live holders of its
    leases, except the peer it is about, were sent it. -/
def Noticed (r : Reg) (roomId peerId : Nat) (m : Msg) (σ' : Fd → Option Sess) : Prop :=
  ∀ fd, Option.Rel (fun c c' =>
    (r.Hears roomId peerId c → c.Heard m c') ∧ (¬ r.Hears roomId peerId c → c' = c))
    (r.sessions fd) (σ' fd)

/-- The sessions alive in the room, without the peer. -/
def audience (r : Reg) (roomId peerId : Nat) : Set Fd :=
  { fd | ∃ c, r.sessions fd = some c ∧ c.alive = true ∧ c.state = .inRoom ∧ c.roomId = roomId ∧
    c.peerId ≠ peerId }

/-- The sessions are now `σ'`, after the notice to the room. -/
def tell (r : Reg) (roomId peerId : Nat) (m : Msg) (σ' : Fd → Option Sess) : Reg :=
  { r with
    sessions := σ'
    notices := r.notices ++ [⟨roomId, peerId, m, r.audience roomId peerId⟩] }

/-! ### Steps -/

/-- The session of a new connection. -/
def freshSession (fd : Fd) (t : Transcript) : Sess where
  tcpFd := fd
  dataFd := none
  peerId := 0
  virtualIP := 0
  roomId := 0
  alive := true
  state := .awaitHello
  serverAuthOk := false
  secureEnabled := false
  secureSessionId := 0
  resumeRoomId := 0
  resumePeerId := 0
  resumeToken := noToken
  pendingJoinRoomId := 0
  authChallenge := List.replicate 32 0
  name := []
  transcript := t
  sent := []
  rejected := []

/-- Drop the entries of an index that point to `fd`. -/
def unbind (index : Nat → Option Fd) (fd : Fd) : Nat → Option Fd :=
  fun k => if index k = some fd then none else index k

/-- The session is in the room, before anybody else is told. -/
def entered (r : Reg) (fd : Fd) (c : Sess) (roomId : Nat) (l : RoomLease) (ls : List RoomLease)
    (m : Msg) :
    Reg :=
  (r.setSession fd { c.enter roomId l.virtualIP l.token with
    name := l.name, sent := c.sent ++ [m] }).setRoom
    roomId ls

/-- The session is logged in with an id. -/
def loggedIn (r : Reg) (fd : Fd) (c : Sess) : Reg :=
  { r.setSession fd c with peerMap := Function.update r.peerMap c.peerId (some fd) }

/-- The session after a login without a resume. -/
def freshLogin (c : Sess) (peerId : Nat) (name : Bytes) : Sess :=
  { c.exit with peerId := peerId, name := name, roomId := c.roomId, virtualIP := c.virtualIP }

/-- What the machine takes from outside: when a session counts as
    authenticated, and what a step may do, which is what the event of the step
    gives the right to. -/
structure Scope where
  Auth : Transcript → Nat → Prop
  Accepts : Fd → Prop
  /-- A connection may become a session. -/
  Promotes : Fd → Prop
  /-- The event may end the session. -/
  Ends : Fd → Prop
  /-- The session may be lost together with its id. -/
  Loses : Fd → Prop
  /-- The session may log in with a new id. -/
  Fresh : Fd → Nat → Prop
  /-- The login of the session asks for the lease in the room. -/
  Resumes : Fd → Nat → RoomLease → Prop
  /-- The session asks to resume in the room, with the lease. -/
  Reenters : Fd → Nat → RoomLease → Prop
  /-- The session, with this id, may open the room. -/
  Creates : Fd → Nat → Nat → Prop
  /-- The session, with this id, may become a member of the room. -/
  Joins : Fd → Nat → Nat → Prop
  /-- The session gets this challenge for the password of the room. -/
  Challenges : Fd → Nat → Bytes → Prop
  /-- The session gives up its lease, or its identity. -/
  Leaves : Fd → Prop
  /-- The handler of the message may be called for the session. -/
  Calls : Fd → Msg → Prop
  /-- A login restores a name only if no other session has it. -/
  Distinct : Prop

/-- No other session that is logged in has the name. -/
def NameFree (r : Reg) (fd : Fd) (name : Bytes) : Prop :=
  ∀ g d, r.sessions g = some d → g ≠ fd → d.peerId ≠ 0 → d.name ≠ name

variable (S : Scope)

inductive Step : Reg → Reg → Prop where
  /-- Messages, deaths, lost messages. -/
  | quiet {r : Reg} {σ' : Fd → Option Sess} (h : QuietSessions r.sessions σ') :
      Step r { r with sessions := σ' }
  | call {r : Reg} {fd : Fd} {m : Msg} (hS : S.Calls fd m) : Step r { r with
      calls := r.calls ++ [(fd, m)] }
  | accept {r : Reg} {fd : Fd} (h : fd ∉ r.openFds) (hS : S.Accepts fd) :
      Step r { r with pending := insert fd r.pending, openFds := insert fd r.openFds }
  /-- A pending connection is taken up, its descriptor stays open. -/
  | unpend {r : Reg} {fd : Fd} : Step r { r with pending := r.pending \ {fd} }
  | closeFd {r : Reg} {fd : Fd} (hs : r.sessions fd = none) (hd : r.dataFdMap fd = none)
      (hp : fd ∉ r.pending) : Step r { r with openFds := r.openFds \ {fd} }
  | promote {r : Reg} {fd : Fd} {t : Transcript} (hs : r.sessions fd = none)
      (hd : r.dataFdMap fd = none) (hp : fd ∉ r.pending) (ho : fd ∈ r.openFds)
      (hS : S.Promotes fd) :
      Step r (r.setSession fd (freshSession fd t))
  | handshake {r : Reg} {fd : Fd} {c : Sess} {state : SessionState} {t : Transcript} {ok : Bool}
      (h : r.sessions fd = some c) (hst : c.state = .awaitHello)
      (hst' : state = .awaitHello ∨ state = .awaitServerAuth) :
      Step r (r.setSession fd { c with state := state, transcript := t, serverAuthOk := ok })
  | giveUp {r : Reg} {fd : Fd} {c : Sess} (h : r.sessions fd = some c)
      (hst : c.state = .awaitHello ∨ c.state = .awaitServerAuth ∨ c.state = .awaitLogin) :
      Step r (r.setSession fd { c with state := .closing })
  | authenticate {r : Reg} {fd : Fd} {c : Sess} {sid : Nat} {t : Transcript}
      (h : r.sessions fd = some c) (hst : c.state = .awaitServerAuth) (hsid : sid ≠ 0)
      (hfree : r.secureSessionMap sid = none) (hauth : S.Auth t sid) :
      Step r { r.setSession fd { c with
          secureSessionId := sid, serverAuthOk := true, secureEnabled := true, transcript := t
          state := .awaitLogin } with
        secureSessionMap := Function.update r.secureSessionMap sid (some fd) }
  | loginReused {r : Reg} {fd : Fd} {c : Sess} {p : Nat} {name : Bytes} (h : r.sessions fd = some c)
      (hst : c.state = .awaitLogin) (hp : p ∈ r.free) (hname : name ≠ [] ∧ name.length < 2 ^ 16)
      (hfree : r.NameFree fd name) (hS : S.Fresh fd p) :
      Step r { r.loggedIn fd (freshLogin c p name) with free := r.free \ {p} }
  | loginNew {r : Reg} {fd : Fd} {c : Sess} {name : Bytes} (h : r.sessions fd = some c)
      (hst : c.state = .awaitLogin) (hname : name ≠ [] ∧ name.length < 2 ^ 16)
      (hfree : r.NameFree fd name)
      (hS : S.Fresh fd r.next) :
      Step r { r.loggedIn fd (freshLogin c r.next name) with next := r.next + 1 }
  | loginResume {r : Reg} {fd : Fd} {c : Sess} {R now : Nat} {ls : List RoomLease}
      {l asked : RoomLease}
      {name : Bytes} (h : r.sessions fd = some c) (hst : c.state = .awaitLogin)
      (hls : r.rooms R = some ls) (hl : l ∈ ls) (htok : Server.tokenIsZero l.token = false)
      (hown : ¬ r.Owned l.peerId) (hname : name ≠ [] ∧ name.length < 2 ^ 16)
      (hkeep : l.name ≠ [] → name = l.name) (hS : S.Resumes fd R asked)
      (hasked : asked.peerId = l.peerId ∧ asked.token = l.token)
      (hfree : S.Distinct → r.NameFree fd name) :
      Step r ((r.loggedIn fd { c with
          peerId := l.peerId, resumeRoomId := R, resumePeerId := l.peerId, resumeToken := l.token
          name := name,
          state := .resumePending }).setRoom R (mapLease l.peerId (·.markOffline now) ls))
  /-- The password dialogue begins or ends. -/
  | lobby {r : Reg} {fd : Fd} {c : Sess} {state : SessionState} {R : Nat} {challenge : Bytes}
      (h : r.sessions fd = some c) (hst : c.state = .loggedIn ∨ c.state = .awaitRoomPassword)
      (hst' : state = .loggedIn ∧ R = 0 ∨ state = .awaitRoomPassword ∧ R ≠ 0 ∧
        S.Challenges fd R challenge) :
      Step r (r.setSession fd { c with
        state := state, pendingJoinRoomId := R, authChallenge := challenge })
  | create {r : Reg} {fd : Fd} {c : Sess} {R : Nat} {l : RoomLease} {m : Msg}
      (h : r.sessions fd = some c) (hst : c.state = .loggedIn) (hR : R ≠ 0)
      (hnew : r.rooms R = none)
      (hp : l.peerId = c.peerId) (hname : l.name = c.name) (ho : l.online = true) (hl : Sized l)
      (hm : SaysCreated m) (hS : S.Creates fd c.peerId R) :
      Step r (r.entered fd c R l [l] m)
  | join {r : Reg} {fd : Fd} {c : Sess} {R : Nat} {ls : List RoomLease} {l : RoomLease} {m n : Msg}
      {σ' : Fd → Option Sess} (h : r.sessions fd = some c) (hst : c.state = .loggedIn)
      (hls : r.rooms R = some ls) (hp : l.peerId = c.peerId) (hname : l.name = c.name)
      (ho : l.online = true) (hl : Sized l) (hlen : ls.length < 255) (hm : SaysJoined m (ls ++ [l]))
      (hn : SaysThere n l) (hS : S.Joins fd c.peerId R)
      (hσ : (r.entered fd c R l (ls ++ [l]) m).Noticed R c.peerId n σ') :
      Step r ((r.entered fd c R l (ls ++ [l]) m).tell R c.peerId n σ')
  /-- The answer to a new member was not accepted, and the membership undone. -/
  | joinFailed {r : Reg} {fd : Fd} {c c' : Sess} {ext lost : List Msg} (h : r.sessions fd = some c)
      (hst : c.state = .loggedIn) (hd : c.Delivered ext lost c') :
      Step r (r.setSession fd { c'.exit with alive := false })
  | resume {r : Reg} {fd : Fd} {c : Sess} {R : Nat} {ls : List RoomLease}
      {l : RoomLease} {m n : Msg}
      {σ' : Fd → Option Sess} (h : r.sessions fd = some c) (hst : c.state = .resumePending)
      (hls : r.rooms R = some ls) (hl : l ∈ ls) (hp : l.peerId = c.peerId)
      (hm : SaysJoined m (mapLease c.peerId (·.markOnline) ls)) (hn : SaysThere n l)
      (hS : S.Reenters fd R l)
      (hσ : (r.entered fd c R l (mapLease c.peerId (·.markOnline) ls) m).Noticed R c.peerId n σ') :
      Step r ((r.entered fd c R l (mapLease c.peerId (·.markOnline) ls) m).tell R c.peerId n σ')
  | resumeFailed {r : Reg} {fd : Fd} {c c' : Sess} {ext lost : List Msg} {R now : Nat}
      {ls : List RoomLease} {l : RoomLease} (h : r.sessions fd = some c)
      (hst : c.state = .resumePending) (hls : r.rooms R = some ls) (hl : l ∈ ls)
      (hp : l.peerId = c.peerId) (hS : S.Reenters fd R l) (hd : c.Delivered ext lost c') :
      Step r ((r.setSession fd
          { c'.enter R l.virtualIP l.token with name := l.name, alive := false }).setRoom R
        (mapLease c.peerId (fun l => l.markOnline.markOffline now) ls))
  | resumeGiveUp {r : Reg} {fd : Fd} {c : Sess} (h : r.sessions fd = some c)
      (hst : c.state = .resumePending) (hl : r.NoLease c.peerId) :
      Step r (r.setSession fd { c.exit with roomId := c.roomId, virtualIP := c.virtualIP })
  /-- The holder of a lease gives it up. -/
  | leave {r : Reg} {fd : Fd} {c : Sess} {ls : List RoomLease} {n : Msg} {σ' : Fd → Option Sess}
      (h : r.sessions fd = some c) (hls : r.rooms c.home = some ls)
      (hl : r.HasLease c.home c.peerId) (hn : SaysLeft n c.peerId)
      (hS : S.Leaves fd) (hσ : r.Noticed c.home c.peerId n σ') :
      Step r (((r.tell c.home c.peerId n σ').setSession fd c.exit).setRoom c.home
        (dropLease c.peerId ls))
  | logout {r : Reg} {fd : Fd} {c : Sess} (h : r.sessions fd = some c)
      (hst : sessionHasPeerIdentity c.state = true) (hd : c.dataFd = none) (hl : r.NoLease c.peerId)
      (hS : S.Leaves fd) :
      Step r { r.setSession fd c.loggedOut with
        peerMap := unbind r.peerMap fd
        secureSessionMap := unbind r.secureSessionMap fd
        free := insert c.peerId r.free }
  | expire {r : Reg} {R : Nat} {ls : List RoomLease} {l : RoomLease} {n : Msg} {σ' : Fd →
      Option Sess}
      (hls : r.rooms R = some ls) (hl : l ∈ ls) (hlive : ¬ r.LiveIn R l.peerId)
      (hn : SaysLeft n l.peerId) (hσ : r.Noticed R l.peerId n σ') :
      Step r { (r.tell R l.peerId n σ').setRoom R (dropLease l.peerId ls) with
        free := { i | i ∈ r.free ∨ i = l.peerId ∧ ¬ r.Owned l.peerId } }
  /-- A lease is marked online or offline, after its session. -/
  | flag {r : Reg} {R : Nat} {ls : List RoomLease} {l : RoomLease} {f : RoomLease → RoomLease}
      (hls : r.rooms R = some ls) (hl : l ∈ ls) (hf : KeepsLease f)
      (hlive : (f l).online = true ↔ r.LiveIn R l.peerId) :
      Step r (r.setRoom R (mapLease l.peerId f ls))
  | eraseRoom {r : Reg} {R : Nat} (hls : r.rooms R = some []) :
      Step r { r with rooms := Function.update r.rooms R none }
  /-- The session is gone.  Its lease, if there is one, waits for a resume; the
      id stays reserved with a session that was in a room or was to resume. -/
  | remove {r : Reg} {fd : Fd} {c : Sess} {now : Nat} (h : r.sessions fd = some c)
      (hd : c.dataFd = none) (hS : r.Orphan c → S.Loses fd)
      (hend : S.Ends fd ∨ ∃ g R l, S.Resumes g R l ∧ l.peerId = c.peerId) :
      Step r { r with
        sessions := Function.update r.sessions fd none
        rooms := Function.update r.rooms c.home
          ((r.rooms c.home).map (mapLease c.peerId (·.markOffline now)))
        peerMap := unbind r.peerMap fd
        secureSessionMap := unbind r.secureSessionMap fd
        free := { i | i ∈ r.free ∨
          i = c.peerId ∧ c.peerId ≠ 0 ∧ c.roomId = 0 ∧ r.rooms c.home = none }
        openFds := r.openFds \ {fd} }
  | bindData {r : Reg} {fd d : Fd} {c : Sess} (h : r.sessions fd = some c)
      (hst : sessionHasPeerIdentity c.state = true) (hc : c.dataFd = none)
      (hs : r.sessions d = none) (hd : r.dataFdMap d = none) (hp : d ∉ r.pending)
      (ho : d ∈ r.openFds) :
      Step r { r.setSession fd { c with dataFd := some d } with
        dataFdMap := Function.update r.dataFdMap d (some fd) }
  | closeData {r : Reg} {fd d : Fd} {c : Sess} (h : r.sessions fd = some c)
      (hd : c.dataFd = some d) :
      Step r { r.setSession fd { c with dataFd := none } with
        dataFdMap := Function.update r.dataFdMap d none
        openFds := r.openFds \ {d} }

/-- Any number of steps. -/
abbrev Run : Reg → Reg → Prop := Relation.ReflTransGen (Step S)

end Reg

end Registry

end VlanConnect
