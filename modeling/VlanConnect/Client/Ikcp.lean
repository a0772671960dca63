/-
  VlanConnect/Client/Ikcp.lean
  ============================
  **The vendored KCP** (`3rdparty/kcp/ikcp.c`), the control block of
  `KcpTunnel.lean` as the program has it.

  Left out are what nothing here reads: logging, the allocator, the mode that
  merges messages to a stream and is never switched on, and the counters of
  dead links.  The lengths of the four queues are those of the lists.

  Segments are cut for the MTU and stay as they are, so a flush never puts out
  more than the MTU it was set up with (`ikcp_respectsMtu`).
-/
import VlanConnect.Client.KcpTunnel

namespace VlanConnect

namespace Ikcp

def IKCP_RTO_NDL : UInt32 := 30
def IKCP_RTO_MIN : UInt32 := 100
def IKCP_RTO_DEF : UInt32 := 200
def IKCP_RTO_MAX : UInt32 := 60000
def IKCP_CMD_PUSH : UInt32 := 81
def IKCP_CMD_ACK : UInt32 := 82
def IKCP_CMD_WASK : UInt32 := 83
def IKCP_CMD_WINS : UInt32 := 84
def IKCP_ASK_SEND : UInt32 := 1
def IKCP_ASK_TELL : UInt32 := 2
def IKCP_WND_SND : UInt32 := 32
def IKCP_WND_RCV : UInt32 := 128
def IKCP_MTU_DEF : Nat := 1400
def IKCP_INTERVAL : UInt32 := 100
def IKCP_OVERHEAD : Nat := 24
def IKCP_THRESH_INIT : UInt32 := 2
def IKCP_THRESH_MIN : UInt32 := 2
def IKCP_PROBE_INIT : UInt32 := 7000
def IKCP_PROBE_LIMIT : UInt32 := 120000
def IKCP_FASTACK_LIMIT : Nat := 5

/-! ### Encoding -/

def encode16u (w : UInt32) : Bytes := [w.toUInt8, (w >>> 8).toUInt8]

def encode32u (l : UInt32) : Bytes :=
  [l.toUInt8, (l >>> 8).toUInt8, (l >>> 16).toUInt8, (l >>> 24).toUInt8]

/-- The byte at an offset that the caller has checked. -/
def decode8u (data : Bytes) (offset : Nat) : UInt32 := (data[offset]?.getD 0).toUInt32

def decode16u (data : Bytes) (offset : Nat) : UInt32 :=
  decode8u data offset ||| decode8u data (offset + 1) <<< 8

def decode32u (data : Bytes) (offset : Nat) : UInt32 :=
  decode16u data offset ||| decode16u data (offset + 2) <<< 16

def imin (a b : UInt32) : UInt32 := if a ≤ b then a else b

def imax (a b : UInt32) : UInt32 := if b ≤ a then a else b

def ibound (lower middle upper : UInt32) : UInt32 := imin (imax lower middle) upper

def itimediff (later earlier : UInt32) : Int := (later - earlier).toInt32.toInt

/-! ### State -/

/-- `IKCPSEG`; `len` is the length of `data`. -/
structure Seg where
  conv : UInt32 := 0
  cmd : UInt32 := 0
  frg : UInt32 := 0
  wnd : UInt32 := 0
  ts : UInt32 := 0
  sn : UInt32 := 0
  una : UInt32 := 0
  resendts : UInt32 := 0
  rto : UInt32 := 0
  fastack : UInt32 := 0
  xmit : UInt32 := 0
  data : Bytes := []

end Ikcp

open Ikcp

/-- `IKCPCB`.  The smoothed times are never negative. -/
structure Ikcpcb where
  conv : UInt32
  mtu : Nat := IKCP_MTU_DEF
  mss : Nat := IKCP_MTU_DEF - IKCP_OVERHEAD
  sndUna : UInt32 := 0
  sndNxt : UInt32 := 0
  rcvNxt : UInt32 := 0
  ssthresh : UInt32 := IKCP_THRESH_INIT
  rxRttval : Nat := 0
  rxSrtt : Nat := 0
  rxRto : UInt32 := IKCP_RTO_DEF
  rxMinrto : UInt32 := IKCP_RTO_MIN
  sndWnd : UInt32 := IKCP_WND_SND
  rcvWnd : UInt32 := IKCP_WND_RCV
  rmtWnd : UInt32 := IKCP_WND_RCV
  cwnd : UInt32 := 0
  probe : UInt32 := 0
  current : UInt32 := 0
  interval : UInt32 := IKCP_INTERVAL
  tsFlush : UInt32 := IKCP_INTERVAL
  nodelay : Nat := 0
  updated : Bool := false
  tsProbe : UInt32 := 0
  probeWait : UInt32 := 0
  incr : UInt32 := 0
  sndQueue : List Seg := []
  rcvQueue : List Seg := []
  sndBuf : List Seg := []
  rcvBuf : List Seg := []
  acklist : List (UInt32 × UInt32) := []
  fastresend : Nat := 0
  fastlimit : Nat := IKCP_FASTACK_LIMIT
  nocwnd : Nat := 0

namespace Ikcpcb

/-! ### Settings -/

def setmtu (k : Ikcpcb) (mtu : Nat) : Ikcpcb :=
  if mtu < 50 ∨ mtu < IKCP_OVERHEAD then k else { k with mtu := mtu, mss := mtu - IKCP_OVERHEAD }

/-- `ikcp_nodelay` of four numbers that are not negative. -/
def setNodelay (k : Ikcpcb) (nodelay interval resend nc : Nat) : Ikcpcb :=
  { k with
    nodelay := nodelay
    rxMinrto := if nodelay ≠ 0 then IKCP_RTO_NDL else IKCP_RTO_MIN
    interval := UInt32.ofNat (if 5000 < interval then 5000 else if interval < 10 then 10
      else interval)
    fastresend := resend
    nocwnd := nc }

def wndsize (k : Ikcpcb) (sndwnd rcvwnd : Nat) : Ikcpcb :=
  { k with
    sndWnd := if 0 < sndwnd then UInt32.ofNat sndwnd else k.sndWnd
    rcvWnd := if 0 < rcvwnd then imax (UInt32.ofNat rcvwnd) IKCP_WND_RCV else k.rcvWnd }

def waitsnd (k : Ikcpcb) : Nat := k.sndBuf.length + k.sndQueue.length

/-! ### Receiving messages -/

/-- From `rcv_buf` to `rcv_queue`, as far as the numbers follow each other. -/
def moveAvailable (k : Ikcpcb) : List Seg → Ikcpcb
  | [] => { k with rcvBuf := [] }
  | seg :: rest =>
    if seg.sn = k.rcvNxt ∧ k.rcvQueue.length < k.rcvWnd.toNat then
      moveAvailable { k with rcvQueue := k.rcvQueue ++ [seg], rcvNxt := k.rcvNxt + 1 } rest
    else { k with rcvBuf := seg :: rest }

/-- The fragments of the first message, merged. -/
def takeMessage : List Seg → Bytes × List Seg
  | [] => ([], [])
  | seg :: rest =>
    if seg.frg = 0 then (seg.data, rest)
    else
      let (more, rest) := takeMessage rest
      (seg.data ++ more, rest)

def recv (k : Ikcpcb) (len : Nat) : Option Bytes × Ikcpcb :=
  match k.rcvQueue with
  | [] => (none, k)
  | seg :: queue =>
    if seg.frg ≠ 0 ∧ (seg :: queue).length < seg.frg.toNat + 1 then (none, k)
    else
      let (message, rest) := takeMessage (seg :: queue)
      if len < message.length then (none, k)
      else
        let recover := decide (k.rcvWnd.toNat ≤ (seg :: queue).length)
        let k := { k with rcvQueue := rest }.moveAvailable k.rcvBuf
        if k.rcvQueue.length < k.rcvWnd.toNat ∧ recover then
          (some message, { k with probe := k.probe ||| IKCP_ASK_TELL })
        else (some message, k)

/-- The calls of `ikcp_recv` until one gives nothing; each one before takes a segment, so there are
    no more of them than segments. -/
def recvUpTo (k : Ikcpcb) : Nat → List Bytes × Ikcpcb
  | 0 => ([], k)
  | fuel + 1 =>
    match k.recv 65536 with
    | (none, k) => ([], k)
    | (some message, k) =>
      if message = [] then ([], k)
      else
        let (messages, k) := k.recvUpTo fuel
        (message :: messages, k)

def recvAll (k : Ikcpcb) : List Bytes × Ikcpcb :=
  k.recvUpTo (k.rcvQueue.length + k.rcvBuf.length + 1)

/-! ### Sending messages -/

def fragments (mss : Nat) : Nat → Bytes → List Seg
  | 0, _ => []
  | count + 1, buffer =>
    { frg := UInt32.ofNat count, data := buffer.take mss } :: fragments mss count (buffer.drop mss)

def send (k : Ikcpcb) (buffer : Bytes) : Int × Ikcpcb :=
  let count := if buffer.length ≤ k.mss then 1 else (buffer.length + k.mss - 1) / k.mss
  if IKCP_WND_RCV.toNat ≤ count then (-2, k)
  else (buffer.length, { k with sndQueue := k.sndQueue ++ fragments k.mss count buffer })

/-! ### Acknowledgements -/

def updateAck (k : Ikcpcb) (rtt : Nat) : Ikcpcb :=
  let (rxSrtt, rxRttval) :=
    if k.rxSrtt = 0 then (rtt, rtt / 2)
    else
      let delta := ((rtt : Int) - k.rxSrtt).natAbs
      (max 1 ((7 * k.rxSrtt + rtt) / 8), (3 * k.rxRttval + delta) / 4)
  let rto := UInt32.ofNat rxSrtt + imax k.interval (UInt32.ofNat (4 * rxRttval))
  { k with rxSrtt := rxSrtt, rxRttval := rxRttval, rxRto := ibound k.rxMinrto rto IKCP_RTO_MAX }

def shrinkBuf (k : Ikcpcb) : Ikcpcb :=
  match k.sndBuf with
  | seg :: _ => { k with sndUna := seg.sn }
  | [] => { k with sndUna := k.sndNxt }

/-- The number was sent and is not acknowledged in whole. -/
def inFlight (k : Ikcpcb) (sn : UInt32) : Bool :=
  decide (0 ≤ itimediff sn k.sndUna ∧ itimediff sn k.sndNxt < 0)

def removeSn (sn : UInt32) : List Seg → List Seg
  | [] => []
  | seg :: rest =>
    if sn = seg.sn then rest
    else if itimediff sn seg.sn < 0 then seg :: rest
    else seg :: removeSn sn rest

def parseAck (k : Ikcpcb) (sn : UInt32) : Ikcpcb :=
  if ¬ k.inFlight sn then k else { k with sndBuf := removeSn sn k.sndBuf }

def parseUna (k : Ikcpcb) (una : UInt32) : Ikcpcb :=
  { k with sndBuf := k.sndBuf.dropWhile fun seg => decide (0 < itimediff una seg.sn) }

def countFastack (sn ts : UInt32) : List Seg → List Seg
  | [] => []
  | seg :: rest =>
    if itimediff sn seg.sn < 0 then seg :: rest
    else if sn ≠ seg.sn ∧ 0 ≤ itimediff ts seg.ts then
      { seg with fastack := seg.fastack + 1 } :: countFastack sn ts rest
    else seg :: countFastack sn ts rest

def parseFastack (k : Ikcpcb) (sn ts : UInt32) : Ikcpcb :=
  if ¬ k.inFlight sn then k else { k with sndBuf := countFastack sn ts k.sndBuf }

def ackPush (k : Ikcpcb) (sn ts : UInt32) : Ikcpcb := { k with acklist := k.acklist ++ [(sn, ts)] }

/-! ### Input -/

/-- Into a buffer that is given from its end. -/
def insertSeg (newseg : Seg) : List Seg → List Seg
  | [] => [newseg]
  | seg :: rest =>
    if seg.sn = newseg.sn then seg :: rest
    else if 0 < itimediff newseg.sn seg.sn then newseg :: seg :: rest
    else seg :: insertSeg newseg rest

def parseData (k : Ikcpcb) (newseg : Seg) : Ikcpcb :=
  if 0 ≤ itimediff newseg.sn (k.rcvNxt + k.rcvWnd) ∨ itimediff newseg.sn k.rcvNxt < 0 then k
  else k.moveAvailable (insertSeg newseg k.rcvBuf.reverse).reverse

def decodeSeg (data : Bytes) : Seg where
  conv := decode32u data 0
  cmd := decode8u data 4
  frg := decode8u data 5
  wnd := decode16u data 6
  ts := decode32u data 8
  sn := decode32u data 12
  una := decode32u data 16

/-- What one segment changes; `acked` is the latest acknowledgement of the input. -/
def inputSeg (k : Ikcpcb) (acked : Option (UInt32 × UInt32)) (seg : Seg) :
    Ikcpcb × Option (UInt32 × UInt32) :=
  let k := ({ k with rmtWnd := seg.wnd }.parseUna seg.una).shrinkBuf
  if seg.cmd = IKCP_CMD_ACK then
    let rtt := itimediff k.current seg.ts
    let k := if 0 ≤ rtt then k.updateAck rtt.toNat else k
    let k := (k.parseAck seg.sn).shrinkBuf
    match acked with
    | none => (k, some (seg.sn, seg.ts))
    | some (maxack, latestTs) =>
      if 0 < itimediff seg.sn maxack ∧ 0 < itimediff seg.ts latestTs then (k, some (seg.sn, seg.ts))
      else (k, acked)
  else if seg.cmd = IKCP_CMD_PUSH then
    if itimediff seg.sn (k.rcvNxt + k.rcvWnd) < 0 then
      let k := k.ackPush seg.sn seg.ts
      (if 0 ≤ itimediff seg.sn k.rcvNxt then k.parseData seg else k, acked)
    else (k, acked)
  else if seg.cmd = IKCP_CMD_WASK then ({ k with probe := k.probe ||| IKCP_ASK_TELL }, acked)
  else (k, acked)

/-- The segments of an input, and whether all of them are read; each takes 24 bytes at least. -/
def inputSegs (k : Ikcpcb) (acked : Option (UInt32 × UInt32)) :
    Nat → Bytes → Bool × Ikcpcb × Option (UInt32 × UInt32)
  | 0, _ => (true, k, acked)
  | fuel + 1, data =>
    if data.length < IKCP_OVERHEAD then (true, k, acked)
    else
      let seg := decodeSeg data
      let len := (decode32u data 20).toNat
      let rest := data.drop IKCP_OVERHEAD
      if seg.conv ≠ k.conv then (false, k, acked)
      else if rest.length < len ∨ 2 ^ 31 ≤ len then (false, k, acked)
      else if seg.cmd < IKCP_CMD_PUSH ∨ IKCP_CMD_WINS < seg.cmd then (false, k, acked)
      else
        let (k, acked) := k.inputSeg acked { seg with data := rest.take len }
        k.inputSegs acked fuel (rest.drop len)

/-- More of the peer's window after an acknowledgement. -/
def growCwnd (k : Ikcpcb) : Ikcpcb :=
  if k.rmtWnd ≤ k.cwnd then k
  else
    let mss := UInt32.ofNat k.mss
    let k : Ikcpcb :=
      if k.cwnd < k.ssthresh then { k with cwnd := k.cwnd + 1, incr := k.incr + mss }
      else
        let incr := if k.incr < mss then mss else k.incr
        let incr := incr + (mss * mss / incr + mss / 16)
        if (k.cwnd + 1) * mss ≤ incr then
          { k with cwnd := (incr + mss - 1) / (if 0 < mss then mss else 1), incr := incr }
        else { k with incr := incr }
    if k.rmtWnd < k.cwnd then { k with cwnd := k.rmtWnd, incr := k.rmtWnd * mss } else k

def input (k : Ikcpcb) (data : Bytes) : Ikcpcb :=
  if data.length < IKCP_OVERHEAD then k
  else
    let prevUna := k.sndUna
    let (done, k, acked) := k.inputSegs none data.length data
    if ¬ done then k
    else
      let k :=
        match acked with
        | some (maxack, latestTs) => k.parseFastack maxack latestTs
        | none => k
      if 0 < itimediff k.sndUna prevUna then k.growCwnd else k

/-! ### Flushing -/

def encodeSeg (seg : Seg) : Bytes :=
  encode32u seg.conv ++ [seg.cmd.toUInt8, seg.frg.toUInt8] ++ encode16u seg.wnd ++
    encode32u seg.ts ++ encode32u seg.sn ++
    encode32u seg.una ++ encode32u (UInt32.ofNat seg.data.length)

def wndUnused (k : Ikcpcb) : UInt32 :=
  if k.rcvQueue.length < k.rcvWnd.toNat then k.rcvWnd - UInt32.ofNat k.rcvQueue.length else 0

/-- What the output callback was called with, and the buffer. -/
structure Writer where
  outputs : List Bytes := []
  buffer : Bytes := []

/-- `ikcp_output` leaves an empty buffer alone. -/
def Writer.output (w : Writer) : Writer :=
  if w.buffer = [] then w else { outputs := w.outputs ++ [w.buffer], buffer := [] }

def Writer.put (mtu : Nat) (w : Writer) (block : Bytes) : Writer :=
  let w := if mtu < w.buffer.length + block.length then w.output else w
  { w with buffer := w.buffer ++ block }

/-- Whether to ask for the peer's window. -/
def probeWindow (k : Ikcpcb) : Ikcpcb :=
  if k.rmtWnd ≠ 0 then { k with tsProbe := 0, probeWait := 0 }
  else if k.probeWait = 0 then { k with
    probeWait := IKCP_PROBE_INIT, tsProbe := k.current + IKCP_PROBE_INIT }
  else if 0 ≤ itimediff k.current k.tsProbe then
    let probeWait := imax k.probeWait IKCP_PROBE_INIT
    let probeWait := imin (probeWait + probeWait / 2) IKCP_PROBE_LIMIT
    { k with
      probeWait := probeWait, tsProbe := k.current + probeWait, probe := k.probe ||| IKCP_ASK_SEND }
  else k

/-- From `snd_queue` to `snd_buf`, as far as the window goes. -/
def moveToSndBuf (k : Ikcpcb) (cwnd wnd : UInt32) : List Seg → Ikcpcb
  | [] => { k with sndQueue := [] }
  | seg :: rest =>
    if itimediff k.sndNxt (k.sndUna + cwnd) < 0 then
      let newseg := { seg with
        conv := k.conv, cmd := IKCP_CMD_PUSH, wnd := wnd, ts := k.current, sn := k.sndNxt,
        una := k.rcvNxt
        resendts := k.current, rto := k.rxRto, fastack := 0, xmit := 0 }
      moveToSndBuf { k with sndBuf := k.sndBuf ++ [newseg], sndNxt := k.sndNxt + 1 } cwnd wnd rest
    else { k with sndQueue := seg :: rest }

/-- Why a segment is sent. -/
inductive Due where
  | no
  | first
  | lost
  | fast
deriving DecidableEq

def due (k : Ikcpcb) (resent : UInt32) (seg : Seg) : Due :=
  if seg.xmit = 0 then .first
  else if 0 ≤ itimediff k.current seg.resendts then .lost
  else if resent ≤ seg.fastack ∧ (seg.xmit.toNat ≤ k.fastlimit ∨ k.fastlimit = 0) then .fast
  else .no

/-- The segment with its next timeout. -/
def retime (k : Ikcpcb) (rtomin : UInt32) (seg : Seg) : Due → Seg
  | .no => seg
  | .first => { seg with
    xmit := seg.xmit + 1, rto := k.rxRto, resendts := k.current + k.rxRto + rtomin }
  | .lost =>
    let rto :=
      if k.nodelay = 0 then seg.rto + imax seg.rto k.rxRto
      else seg.rto + ((if k.nodelay < 2 then seg.rto else k.rxRto).toInt32 / 2).toUInt32
    { seg with xmit := seg.xmit + 1, rto := rto, resendts := k.current + rto }
  | .fast => { seg with xmit := seg.xmit + 1, fastack := 0, resendts := k.current + seg.rto }

/-- The segments of `snd_buf`, each sent if it is due. -/
def flushSegs (k : Ikcpcb) (wnd resent rtomin : UInt32) (w : Writer) : List Seg → Writer × List Seg
  | [] => (w, [])
  | seg :: rest =>
    match k.due resent seg with
    | .no =>
      let (w, rest) := k.flushSegs wnd resent rtomin w rest
      (w, seg :: rest)
    | reason =>
      let seg := { k.retime rtomin seg reason with ts := k.current, wnd := wnd, una := k.rcvNxt }
      let (w, rest) := k.flushSegs wnd resent rtomin (w.put k.mtu (encodeSeg seg ++ seg.data)) rest
      (w, seg :: rest)

/-- The windows after a flush; `cwnd` is the one it worked with. -/
def slowDown (k : Ikcpcb) (cwnd resent : UInt32) (change lost : Bool) : Ikcpcb :=
  let k :=
    if change then
      let ssthresh := imax ((k.sndNxt - k.sndUna) / 2) IKCP_THRESH_MIN
      { k with
        ssthresh := ssthresh, cwnd := ssthresh + resent,
        incr := (ssthresh + resent) * UInt32.ofNat k.mss }
    else k
  let k :=
    if lost then { k with
      ssthresh := imax (cwnd / 2) IKCP_THRESH_MIN, cwnd := 1, incr := UInt32.ofNat k.mss }
    else k
  if k.cwnd < 1 then { k with cwnd := 1, incr := UInt32.ofNat k.mss } else k

def flush (k : Ikcpcb) : List Bytes × Ikcpcb :=
  if ¬ k.updated then ([], k)
  else
    let seg : Seg := { conv := k.conv, cmd := IKCP_CMD_ACK, wnd := k.wndUnused, una := k.rcvNxt }
    let w := k.acklist.foldl
      (fun w ack => w.put k.mtu (encodeSeg { seg with sn := ack.1, ts := ack.2 })) ({} : Writer)
    -- the probes go out under the number of the last acknowledgement
    let last := k.acklist.getLast?.getD (0, 0)
    let seg := { seg with sn := last.1, ts := last.2 }
    let k := { k with acklist := [] }.probeWindow
    let w := if k.probe &&& IKCP_ASK_SEND ≠ 0 then
      w.put k.mtu (encodeSeg { seg with cmd := IKCP_CMD_WASK }) else w
    let w := if k.probe &&& IKCP_ASK_TELL ≠ 0 then
      w.put k.mtu (encodeSeg { seg with cmd := IKCP_CMD_WINS }) else w
    let cwnd := imin k.sndWnd k.rmtWnd
    let cwnd := if k.nocwnd = 0 then imin k.cwnd cwnd else cwnd
    let k := { k with probe := 0 }.moveToSndBuf cwnd seg.wnd k.sndQueue
    let resent : UInt32 := if 0 < k.fastresend then UInt32.ofNat k.fastresend else 0xffffffff
    let rtomin : UInt32 := if k.nodelay = 0 then k.rxRto / 8 else 0
    let change := k.sndBuf.any fun seg => decide (k.due resent seg = .fast)
    let lost := k.sndBuf.any fun seg => decide (k.due resent seg = .lost)
    let (w, sndBuf) := k.flushSegs seg.wnd resent rtomin w k.sndBuf
    (w.output.outputs, { k with sndBuf := sndBuf }.slowDown cwnd resent change lost)

def update (k : Ikcpcb) (current : UInt32) : List Bytes × Ikcpcb :=
  let k := { k with current := current }
  let k := if k.updated then k else { k with updated := true, tsFlush := current }
  let slap := itimediff current k.tsFlush
  let (k, slap) := if 10000 ≤ slap ∨ slap < -10000 then ({ k with tsFlush := current }, 0)
    else (k, slap)
  if slap < 0 then ([], k)
  else
    let tsFlush := k.tsFlush + k.interval
    { k with
      tsFlush := if 0 ≤ itimediff current tsFlush then current + k.interval else tsFlush }.flush

end Ikcpcb

/-- The library, as the transport calls it. -/
def ikcp : Kcp where
  State := Ikcpcb
  create conv := { conv := UInt32.ofNat conv }
  setmtu := Ikcpcb.setmtu
  nodelay := Ikcpcb.setNodelay
  wndsize := Ikcpcb.wndsize
  setMinrto k rto := { k with rxMinrto := UInt32.ofNat rto }
  setFastresend k resend := { k with fastresend := resend }
  waitsnd := Ikcpcb.waitsnd
  send := Ikcpcb.send
  input := Ikcpcb.input
  recvAll := Ikcpcb.recvAll
  update k now := k.update (UInt32.ofNat now)

/-! ### The MTU is kept -/

namespace Ikcpcb

variable {k k' k'' : Ikcpcb} {n : Nat}

/-- Every segment on its way was cut for the MTU. -/
structure Cut (k : Ikcpcb) (n : Nat) : Prop where
  mtu : k.mtu = n
  mss : k.mss + IKCP_OVERHEAD = n
  sndQueue : ∀ seg ∈ k.sndQueue, seg.data.length ≤ k.mss
  sndBuf : ∀ seg ∈ k.sndBuf, seg.data.length ≤ k.mss

/-- No message is added, and what is on its way keeps its data. -/
structure Kept (k' k : Ikcpcb) : Prop where
  mtu : k'.mtu = k.mtu
  mss : k'.mss = k.mss
  sndQueue : k'.sndQueue = k.sndQueue
  sndBuf : ∀ seg ∈ k'.sndBuf, ∃ old ∈ k.sndBuf, seg.data = old.data

theorem Cut.kept (h : k.Cut n) (hkept : k'.Kept k) : k'.Cut n := by
  constructor
  · rw [hkept.mtu]
    exact h.mtu
  · rw [hkept.mss]
    exact h.mss
  · rw [hkept.sndQueue, hkept.mss]
    exact h.sndQueue
  · intro seg hseg
    obtain ⟨old, hold, hdata⟩ := hkept.sndBuf seg hseg
    rw [hdata, hkept.mss]
    exact h.sndBuf old hold

theorem kept_of_eq (hmtu : k'.mtu = k.mtu) (hmss : k'.mss = k.mss)
    (hqueue : k'.sndQueue = k.sndQueue) (hbuf : k'.sndBuf = k.sndBuf) : k'.Kept k := by
  refine ⟨hmtu, hmss, hqueue, fun seg hseg => ⟨seg, ?_, rfl⟩⟩
  rw [← hbuf]
  exact hseg

theorem Kept.refl (k : Ikcpcb) : k.Kept k := kept_of_eq rfl rfl rfl rfl

theorem Kept.trans (h : k''.Kept k') (h' : k'.Kept k) : k''.Kept k := by
  refine ⟨h.mtu.trans h'.mtu, h.mss.trans h'.mss, h.sndQueue.trans h'.sndQueue, ?_⟩
  intro seg hseg
  obtain ⟨old, hold, hdata⟩ := h.sndBuf seg hseg
  obtain ⟨older, holder, hdata'⟩ := h'.sndBuf old hold
  exact ⟨older, holder, hdata.trans hdata'⟩

/-- Other fields may change. -/
theorem Kept.congr (h : k'.Kept k) (hmtu : k''.mtu = k'.mtu) (hmss : k''.mss = k'.mss)
    (hqueue : k''.sndQueue = k'.sndQueue) (hbuf : k''.sndBuf = k'.sndBuf) : k''.Kept k :=
  (kept_of_eq hmtu hmss hqueue hbuf).trans h

/-- A part of `snd_buf` is left. -/
theorem kept_of_sublist (k : Ikcpcb) {segs : List Seg} (h : segs.Sublist k.sndBuf) :
    Kept { k with sndBuf := segs } k :=
  ⟨rfl, rfl, rfl, fun seg hseg => ⟨seg, h.subset hseg, rfl⟩⟩

theorem kept_moveAvailable (k : Ikcpcb) (segs : List Seg) : (k.moveAvailable segs).Kept k := by
  induction segs generalizing k with
  | nil => exact kept_of_eq rfl rfl rfl rfl
  | cons seg rest ih =>
    unfold moveAvailable
    split
    · exact (ih _).trans ((Kept.refl k).congr rfl rfl rfl rfl)
    · exact kept_of_eq rfl rfl rfl rfl

theorem kept_recv (k : Ikcpcb) (len : Nat) : (k.recv len).2.Kept k := by
  unfold recv
  split
  · exact Kept.refl k
  next seg queue hqueue =>
  split
  · exact Kept.refl k
  dsimp only
  split
  · exact Kept.refl k
  generalize (takeMessage (seg :: queue)).2 = rest
  have hmove : Kept ({ k with rcvQueue := rest }.moveAvailable k.rcvBuf) k :=
    (kept_moveAvailable _ k.rcvBuf).trans (kept_of_eq rfl rfl rfl rfl)
  split
  · exact hmove.congr rfl rfl rfl rfl
  · exact hmove

theorem kept_recvUpTo (k : Ikcpcb) (fuel : Nat) : (k.recvUpTo fuel).2.Kept k := by
  induction fuel generalizing k with
  | zero => exact Kept.refl k
  | succ fuel ih =>
    have hrecv := kept_recv k 65536
    unfold recvUpTo
    split
    next k' hnone =>
      rw [hnone] at hrecv
      exact hrecv
    next message k' hsome =>
      rw [hsome] at hrecv
      split
      · exact hrecv
      · exact (ih k').trans hrecv

theorem removeSn_sublist (sn : UInt32) (segs : List Seg) : (removeSn sn segs).Sublist segs := by
  induction segs with
  | nil => exact List.Sublist.refl []
  | cons seg rest ih =>
    unfold removeSn
    split
    · exact List.sublist_cons_self seg rest
    split
    · exact List.Sublist.refl _
    · exact ih.cons_cons seg

theorem countFastack_data (sn ts : UInt32) (segs : List Seg) :
    ∀ seg ∈ countFastack sn ts segs, ∃ old ∈ segs, seg.data = old.data := by
  induction segs with
  | nil =>
    intro seg hseg
    cases hseg
  | cons first rest ih =>
    have hlater : ∀ seg ∈ countFastack sn ts rest, ∃ old ∈ first :: rest, seg.data = old.data := by
      intro seg hseg
      obtain ⟨old, hold, hdata⟩ := ih seg hseg
      exact ⟨old, List.mem_cons_of_mem first hold, hdata⟩
    intro seg hseg
    unfold countFastack at hseg
    split at hseg
    · exact ⟨seg, hseg, rfl⟩
    split at hseg
    · rcases List.mem_cons.mp hseg with rfl | hseg
      · exact ⟨first, List.mem_cons_self, rfl⟩
      · exact hlater seg hseg
    · rcases List.mem_cons.mp hseg with rfl | hseg
      · exact ⟨seg, List.mem_cons_self, rfl⟩
      · exact hlater seg hseg

theorem kept_shrinkBuf (k : Ikcpcb) : k.shrinkBuf.Kept k := by
  unfold shrinkBuf
  split
  · exact kept_of_eq rfl rfl rfl rfl
  · exact kept_of_eq rfl rfl rfl rfl

theorem kept_parseUna (k : Ikcpcb) (una : UInt32) : (k.parseUna una).Kept k :=
  kept_of_sublist k (List.dropWhile_sublist _)

theorem kept_parseAck (k : Ikcpcb) (sn : UInt32) : (k.parseAck sn).Kept k := by
  unfold parseAck
  split
  · exact Kept.refl k
  · exact kept_of_sublist k (removeSn_sublist sn k.sndBuf)

theorem kept_parseFastack (k : Ikcpcb) (sn ts : UInt32) : (k.parseFastack sn ts).Kept k := by
  unfold parseFastack
  split
  · exact Kept.refl k
  · exact ⟨rfl, rfl, rfl, countFastack_data sn ts k.sndBuf⟩

theorem kept_parseData (k : Ikcpcb) (newseg : Seg) : (k.parseData newseg).Kept k := by
  unfold parseData
  split
  · exact Kept.refl k
  · exact kept_moveAvailable k _

theorem kept_inputSeg (k : Ikcpcb) (acked : Option (UInt32 × UInt32)) (seg : Seg) :
    (k.inputSeg acked seg).1.Kept k := by
  have hwnd : Kept { k with rmtWnd := seg.wnd } k := kept_of_eq rfl rfl rfl rfl
  have hstart := ((kept_shrinkBuf _).trans (kept_parseUna _ seg.una)).trans hwnd
  unfold inputSeg
  generalize ({ k with rmtWnd := seg.wnd }.parseUna seg.una).shrinkBuf = k₁ at hstart ⊢
  dsimp only
  split
  · -- an acknowledgement
    have htimed : ∀ k₂ : Ikcpcb, k₂.Kept k₁ → (k₂.parseAck seg.sn).shrinkBuf.Kept k := by
      intro k₂ h₂
      exact ((kept_shrinkBuf _).trans (kept_parseAck k₂ seg.sn)).trans (h₂.trans hstart)
    have hrtt :
        (if 0 ≤ itimediff k₁.current seg.ts then k₁.updateAck (itimediff k₁.current seg.ts).toNat
          else k₁).Kept k₁ := by
      split
      · exact kept_of_eq rfl rfl rfl rfl
      · exact Kept.refl k₁
    split
    · exact htimed _ hrtt
    · split
      · exact htimed _ hrtt
      · exact htimed _ hrtt
  split
  · split
    · have hpush : (k₁.ackPush seg.sn seg.ts).Kept k := hstart.congr rfl rfl rfl rfl
      split
      · exact (kept_parseData _ seg).trans hpush
      · exact hpush
    · exact hstart
  split
  · exact hstart.congr rfl rfl rfl rfl
  · exact hstart

theorem kept_inputSegs (k : Ikcpcb) (acked : Option (UInt32 × UInt32)) (fuel : Nat) (data : Bytes) :
    (k.inputSegs acked fuel data).2.1.Kept k := by
  induction fuel generalizing k acked data with
  | zero => exact Kept.refl k
  | succ fuel ih =>
    unfold inputSegs
    split
    · exact Kept.refl k
    dsimp only
    split
    · exact Kept.refl k
    split
    · exact Kept.refl k
    split
    · exact Kept.refl k
    · exact (ih _ _ _).trans (kept_inputSeg k acked _)

theorem kept_growCwnd (k : Ikcpcb) : k.growCwnd.Kept k := by
  unfold growCwnd
  split
  · exact Kept.refl k
  extract_lets mss incr₀ incr k₁
  have hgrown : k₁.Kept k := by
    unfold k₁
    split
    · exact kept_of_eq rfl rfl rfl rfl
    · split
      · exact kept_of_eq rfl rfl rfl rfl
      · exact kept_of_eq rfl rfl rfl rfl
  split
  · exact hgrown.congr rfl rfl rfl rfl
  · exact hgrown

theorem kept_input (k : Ikcpcb) (data : Bytes) : (k.input data).Kept k := by
  unfold input
  split
  · exact Kept.refl k
  have hread := kept_inputSegs k none data.length data
  generalize k.inputSegs none data.length data = result at hread ⊢
  obtain ⟨done, k₁, acked⟩ := result
  dsimp only at hread ⊢
  split
  · exact hread
  cases acked with
  | none =>
    dsimp only
    split
    · exact (kept_growCwnd k₁).trans hread
    · exact hread
  | some ack =>
    have hcounted := (kept_parseFastack k₁ ack.1 ack.2).trans hread
    dsimp only
    split
    · exact (kept_growCwnd _).trans hcounted
    · exact hcounted

/-! ### Cutting and flushing -/

theorem length_fragments (mss count : Nat) (buffer : Bytes) :
    ∀ seg ∈ fragments mss count buffer, seg.data.length ≤ mss := by
  induction count generalizing buffer with
  | zero =>
    intro seg hseg
    cases hseg
  | succ count ih =>
    intro seg hseg
    rcases List.mem_cons.mp hseg with rfl | hseg
    · exact List.length_take_le _ _
    · exact ih _ seg hseg

theorem Cut.send (h : k.Cut n) (buffer : Bytes) : (k.send buffer).2.Cut n := by
  unfold Ikcpcb.send
  extract_lets count
  split
  · exact h
  · refine ⟨h.mtu, h.mss, fun seg hseg => ?_, h.sndBuf⟩
    rcases List.mem_append.mp hseg with hseg | hseg
    · exact h.sndQueue seg hseg
    · exact length_fragments _ _ _ seg hseg

theorem Cut.moveToSndBuf (cwnd wnd : UInt32) {segs : List Seg} (h : k.Cut n)
    (hsegs : ∀ seg ∈ segs, seg.data.length ≤ k.mss) : (k.moveToSndBuf cwnd wnd segs).Cut n := by
  induction segs generalizing k with
  | nil => exact ⟨h.mtu, h.mss, hsegs, h.sndBuf⟩
  | cons seg rest ih =>
    unfold Ikcpcb.moveToSndBuf
    split
    · refine ih ⟨h.mtu, h.mss, h.sndQueue, fun seg' hseg' => ?_⟩ fun seg' hseg' =>
        hsegs seg' (List.mem_cons_of_mem _ hseg')
      rcases List.mem_append.mp hseg' with hseg' | hseg'
      · exact h.sndBuf seg' hseg'
      · rw [List.mem_singleton.mp hseg']
        exact hsegs seg List.mem_cons_self
    · exact ⟨h.mtu, h.mss, hsegs, h.sndBuf⟩

/-- Nothing that was put out, and nothing in the buffer, is longer than the MTU. -/
structure Writer.Within (w : Writer) (n : Nat) : Prop where
  outputs : ∀ output ∈ w.outputs, output.length ≤ n
  buffer : w.buffer.length ≤ n

theorem Writer.Within.output {w : Writer} (h : w.Within n) : w.output.Within n := by
  unfold Writer.output
  split
  · exact h
  · refine ⟨fun output houtput => ?_, Nat.zero_le n⟩
    rcases List.mem_append.mp houtput with houtput | houtput
    · exact h.outputs output houtput
    · rw [List.mem_singleton.mp houtput]
      exact h.buffer

/-- **A block that fits alone** goes into the buffer or starts a new one. -/
theorem Writer.Within.put {w : Writer} (h : w.Within n) {block : Bytes}
    (hblock : block.length ≤ n) :
    (w.put n block).Within n := by
  unfold Writer.put
  split
  · have hempty : w.output.buffer = [] := by
      unfold Writer.output
      split
      · assumption
      · rfl
    refine ⟨h.output.outputs, ?_⟩
    dsimp only
    rw [hempty]
    exact hblock
  · next hfits =>
    refine ⟨h.outputs, ?_⟩
    dsimp only
    rw [List.length_append]
    omega

theorem length_encodeSeg (seg : Seg) : (encodeSeg seg).length = IKCP_OVERHEAD := rfl

theorem retime_data (k : Ikcpcb) (rtomin : UInt32) (seg : Seg) (reason : Due) :
    (k.retime rtomin seg reason).data = seg.data := by
  cases reason with
  | no => rfl
  | first => rfl
  | lost => rfl
  | fast => rfl

theorem flushSegs_within (h : k.Cut n) (wnd resent rtomin : UInt32) {w : Writer} (hw : w.Within n)
    {segs : List Seg} (hsegs : ∀ seg ∈ segs, seg.data.length ≤ k.mss) :
    (k.flushSegs wnd resent rtomin w segs).1.Within n ∧
      ∀ seg ∈ (k.flushSegs wnd resent rtomin w segs).2, seg.data.length ≤ k.mss := by
  induction segs generalizing w with
  | nil => exact ⟨hw, hsegs⟩
  | cons seg rest ih =>
    have hseg := hsegs seg List.mem_cons_self
    have hrest : ∀ seg ∈ rest, seg.data.length ≤ k.mss :=
      fun seg hmem => hsegs seg (List.mem_cons_of_mem _ hmem)
    unfold flushSegs
    split
    · obtain ⟨hwithin, hdata⟩ := ih hw hrest
      exact ⟨hwithin, List.forall_mem_cons.mpr ⟨hseg, hdata⟩⟩
    next reason hreason =>
    have hblock : ∀ seg' : Seg, seg'.data = seg.data →
        (encodeSeg seg' ++ seg'.data).length ≤ n := by
      intro seg' hdata
      rw [List.length_append, length_encodeSeg, hdata]
      have hmss := h.mss
      omega
    have hkeep := retime_data k rtomin seg (k.due resent seg)
    rw [h.mtu]
    obtain ⟨hwithin, hdata⟩ := ih (hw.put (hblock { k.retime rtomin seg (k.due resent seg) with
      ts := k.current, wnd := wnd, una := k.rcvNxt } hkeep)) hrest
    refine ⟨hwithin, List.forall_mem_cons.mpr ⟨?_, hdata⟩⟩
    dsimp only
    rw [hkeep]
    exact hseg

theorem kept_probeWindow (k : Ikcpcb) : k.probeWindow.Kept k := by
  unfold probeWindow
  split
  · exact kept_of_eq rfl rfl rfl rfl
  split
  · exact kept_of_eq rfl rfl rfl rfl
  split
  · exact kept_of_eq rfl rfl rfl rfl
  · exact Kept.refl k

theorem kept_slowDown (k : Ikcpcb) (cwnd resent : UInt32) (change lost : Bool) :
    (k.slowDown cwnd resent change lost).Kept k := by
  unfold slowDown
  extract_lets ssthresh k₁ k₂
  have hchange : k₁.Kept k := by
    unfold k₁
    split
    · exact kept_of_eq rfl rfl rfl rfl
    · exact Kept.refl k
  have hlost : k₂.Kept k := by
    unfold k₂
    split
    · exact hchange.congr rfl rfl rfl rfl
    · exact hchange
  split
  · exact hlost.congr rfl rfl rfl rfl
  · exact hlost

/-- Acknowledgements and probes are headers alone. -/
theorem Writer.Within.header {w : Writer} (h : w.Within n) (hn : 50 ≤ n) (seg : Seg) :
    (w.put n (encodeSeg seg)).Within n := by
  refine h.put ?_
  rw [length_encodeSeg]
  exact le_trans (by decide) hn

theorem Writer.Within.headers {w : Writer} (h : w.Within n) (hn : 50 ≤ n)
    (seg : UInt32 × UInt32 → Seg) (acks : List (UInt32 × UInt32)) :
    (acks.foldl (fun w ack => w.put n (encodeSeg (seg ack))) w).Within n := by
  induction acks generalizing w with
  | nil => exact h
  | cons ack acks ih => exact ih (h.header hn (seg ack))

/-- **A flush** puts out blocks that fit alone, so nothing longer than the MTU. -/
theorem Cut.flush (h : k.Cut n) (hn : 50 ≤ n) :
    (∀ output ∈ k.flush.1, output.length ≤ n) ∧ k.flush.2.Cut n := by
  unfold Ikcpcb.flush
  split
  · exact ⟨fun output hmem => absurd hmem List.not_mem_nil, h⟩
  extract_lets seg w₁ last seg' k₁ w₂ w₃ cwnd₀ cwnd k₂ resent rtomin change lost
  have hk₁ : k₁.Cut n := h.kept ((kept_probeWindow _).trans (kept_of_eq rfl rfl rfl rfl))
  have hw₁ : w₁.Within n := by
    unfold w₁
    rw [h.mtu]
    have hempty : Writer.Within {} n :=
      ⟨fun output hmem => absurd hmem List.not_mem_nil, Nat.zero_le n⟩
    exact hempty.headers hn (fun ack => { seg with sn := ack.1, ts := ack.2 }) k.acklist
  have hw₂ : w₂.Within n := by
    unfold w₂
    rw [hk₁.mtu]
    split
    · exact hw₁.header hn _
    · exact hw₁
  have hw₃ : w₃.Within n := by
    unfold w₃
    rw [hk₁.mtu]
    split
    · exact hw₂.header hn _
    · exact hw₂
  have hk₂ : k₂.Cut n := by
    have hprobe : Cut { k₁ with probe := 0 } n := hk₁.kept (kept_of_eq rfl rfl rfl rfl)
    exact hprobe.moveToSndBuf cwnd seg'.wnd hk₁.sndQueue
  obtain ⟨hwithin, hdata⟩ := flushSegs_within hk₂ seg'.wnd resent rtomin hw₃ hk₂.sndBuf
  split
  next w sndBuf hsegs =>
  rw [hsegs] at hwithin hdata
  refine ⟨hwithin.output.outputs, ?_⟩
  have hsent : Cut { k₂ with sndBuf := sndBuf } n := ⟨hk₂.mtu, hk₂.mss, hk₂.sndQueue, hdata⟩
  exact hsent.kept (kept_slowDown _ _ _ _ _)

theorem Cut.update (h : k.Cut n) (hn : 50 ≤ n) (current : UInt32) :
    (∀ output ∈ (k.update current).1, output.length ≤ n) ∧ (k.update current).2.Cut n := by
  unfold Ikcpcb.update
  extract_lets k₁ k₂ slap₀
  have hk₂ : k₂.Cut n := by
    unfold k₂
    split
    · exact h.kept (kept_of_eq rfl rfl rfl rfl)
    · exact h.kept (kept_of_eq rfl rfl rfl rfl)
  split
  next k₃ slap hreset =>
  have hk₃ : k₃.Cut n := by
    split at hreset
    · cases hreset
      exact hk₂.kept (kept_of_eq rfl rfl rfl rfl)
    · cases hreset
      exact hk₂
  split
  · exact ⟨fun output hmem => absurd hmem List.not_mem_nil, hk₃⟩
  · extract_lets tsFlush
    exact Cut.flush (hk₃.kept (kept_of_eq rfl rfl rfl rfl)) hn

end Ikcpcb

/-- **In every state** that the transport can bring the block to. -/
theorem ikcp_cut {n : Nat} {k : ikcp.State} (hn : 50 ≤ n) (h : ikcp.Reached n k) :
    Ikcpcb.Cut k n := by
  induction h with
  | setmtu conv =>
    change (Ikcpcb.setmtu { conv := UInt32.ofNat conv } n).Cut n
    have hmtu : ¬ (n < 50 ∨ n < IKCP_OVERHEAD) := by
      unfold IKCP_OVERHEAD
      omega
    unfold Ikcpcb.setmtu
    rw [if_neg hmtu]
    refine ⟨rfl, ?_, fun seg hmem => absurd hmem List.not_mem_nil,
      fun seg hmem => absurd hmem List.not_mem_nil⟩
    change n - IKCP_OVERHEAD + IKCP_OVERHEAD = n
    unfold IKCP_OVERHEAD
    omega
  | nodelay nodelay interval resend nc _ ih => exact ih.kept (Ikcpcb.kept_of_eq rfl rfl rfl rfl)
  | wndsize sndwnd rcvwnd _ ih => exact ih.kept (Ikcpcb.kept_of_eq rfl rfl rfl rfl)
  | setMinrto rto _ ih => exact ih.kept (Ikcpcb.kept_of_eq rfl rfl rfl rfl)
  | setFastresend resend _ ih => exact ih.kept (Ikcpcb.kept_of_eq rfl rfl rfl rfl)
  | send data _ ih => exact ih.send data
  | input data _ ih => exact ih.kept (Ikcpcb.kept_input _ data)
  | recvAll _ ih => exact ih.kept (Ikcpcb.kept_recvUpTo _ _)
  | update now _ ih => exact (ih.update hn _).2

/-- **The vendored KCP keeps the MTU it was given.** -/
theorem ikcp_respectsMtu : ikcp.RespectsMtu := by
  intro mtu s hmtu hs now
  exact ((ikcp_cut hmtu hs).update hmtu (UInt32.ofNat now)).1

end VlanConnect
