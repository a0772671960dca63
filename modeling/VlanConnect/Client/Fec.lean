/-
  VlanConnect/Client/Fec.lean
  ===========================
  **Forward error correction** (`client-cli/src/cli_fec.cpp`).

  The encoder collects up to ten payloads, pads them to one block size and adds
  parity blocks; the decoder hands every original on as it comes and, once as
  many blocks as originals are there, the ones that are missing.  The erasure
  code of `3rdparty/cm256cc` is a parameter.

  The decoder is modelled with its outputs and with the reads it makes, as one
  list in the order in which they happen: the receiver of an output never calls
  the decoder again, so its state does not depend on what the receiver does.
-/
import Mathlib.Data.Finset.Card
import VlanConnect.Lib.PieceTable
import VlanConnect.Protocol

namespace VlanConnect

open ByteBuffer PieceTable

/-- `cm256_encode` and `cm256_decode`; `none` is a result other than 0. A block is its
    index and its bytes; the decoder of the library works in place, so what it returns
    stands for the blocks afterwards. -/
structure Cm256 where
  encode : (originalCount recoveryCount blockBytes : Nat) → (originals : List Bytes) →
      Option (List Bytes)
  decode : (originalCount recoveryCount blockBytes : Nat) → (blocks : List (Nat × Bytes)) →
      Option (List (Nat × Bytes))

/-- `FecHeader`. -/
def fecHeader (groupId index dataCount totalCount : Nat) : Bytes :=
  [UInt8.ofNat groupId, UInt8.ofNat index, UInt8.ofNat dataCount, UInt8.ofNat totalCount]

/-! ### The encoder -/

/-- `m_bufferStartTime` is left out: it is written and never read. -/
structure CliFecEncoder where
  mode : FecMode
  groupId : Nat := 0
  maxBlockSize : Nat := 0
  buffer : List Bytes := []
deriving DecidableEq

namespace CliFecEncoder

variable (cm : Cm256)

/-- Length and payload in a block of zeros. -/
def padded (blockBytes : Nat) (payload : Bytes) : Bytes :=
  writeU16 payload.length ++ payload ++ List.replicate (blockBytes - (2 + payload.length)) 0

/-- The packets that are output, and the encoder afterwards. -/
def flush (e : CliFecEncoder) : List Bytes × CliFecEncoder :=
  if e.buffer = [] then ([], e)
  else
    let dataCount := e.buffer.length
    let parity := fecParityCount e.mode dataCount
    let parity := if parity = 0 then 1 else parity
    let blockBytes := 2 + e.maxBlockSize
    let originals := e.buffer.map (padded blockBytes)
    let encoded := cm.encode dataCount parity blockBytes originals
    let totalCount := if encoded.isSome then dataCount + parity else dataCount
    let packets := originals.zipIdx.map fun (block, i) =>
      fecHeader e.groupId i dataCount totalCount ++ block
    let recovery := match encoded with
      | some blocks => blocks.zipIdx.map fun (block, i) =>
          fecHeader e.groupId (dataCount + i) dataCount (dataCount + parity) ++ block
      | none => []
    (packets ++ recovery,
      { e with groupId := (e.groupId + 1) % 256, buffer := [], maxBlockSize := 0 })

def addPacket (e : CliFecEncoder) (payload : Bytes) : List Bytes × CliFecEncoder :=
  let e := { e with
    buffer := e.buffer ++ [payload]
    maxBlockSize := if e.maxBlockSize < payload.length then payload.length else e.maxBlockSize }
  if FEC_GROUP_SIZE ≤ e.buffer.length then e.flush cm else ([], e)

def update (e : CliFecEncoder) : List Bytes × CliFecEncoder :=
  if e.buffer = [] then ([], e) else e.flush cm

end CliFecEncoder

/-! ### The decoder -/

inductive FecEffect where
  /-- `m_output`. -/
  | output (payload : Bytes)
  /-- A read of `count` bytes at `offset` from a buffer of `size` bytes. -/
  | read (size offset count : Nat)
deriving DecidableEq

structure FecGroup where
  dataCount : Nat
  totalCount : Nat
  blockBytes : Nat
  createTime : Nat
  decoded : Bool := false
  blocks : Std.ExtTreeMap Nat Bytes := ∅
  emittedOriginals : Finset Nat := ∅

namespace FecGroup

def shape : Shape FecGroup where
  time g := g.createTime
  size g := total List.length g.blocks

end FecGroup

structure CliFecDecoder where
  /-- `m_groups` and `m_bufferedBytes`. -/
  table : Table Nat FecGroup := {}

namespace CliFecDecoder

def GROUP_TIMEOUT_MS : Nat := 500

def limits : Limits := ⟨FEC_MAX_ACTIVE_GROUPS, FEC_MAX_BUFFERED_BYTES⟩

variable (cm : Cm256)

def group (d : CliFecDecoder) (groupId : Nat) : Option FecGroup := d.table.entries[groupId]?

def removeGroup (d : CliFecDecoder) (groupId : Nat) : CliFecDecoder :=
  { d with table := d.table.remove FecGroup.shape groupId }

def ensureCapacity (d : CliFecDecoder) (incomingBytes : Nat) (newGroup : Bool) :
    Bool × CliFecDecoder :=
  let (ok, table) := d.table.ensure FecGroup.shape limits incomingBytes newGroup
  (ok, { d with table := table })

def cleanup (d : CliFecDecoder) (nowMs : Nat) : CliFecDecoder :=
  { d with
    table := d.table.expire FecGroup.shape fun g =>
      decide (GROUP_TIMEOUT_MS < elapsedMs nowMs g.createTime) }

/-- The 16-bit length at the start of a block. -/
def lengthPrefix (block : Bytes) : Nat := BigEndian.decode (block.take 2)

/-- Length, then payload: the part both ways of handing an original on share. -/
def emitPayload (block : Bytes) (limit : Nat) : List FecEffect :=
  let payloadLen := lengthPrefix block
  .read block.length 0 2 ::
    if 0 < payloadLen ∧ 2 + payloadLen ≤ limit then
      [.read block.length 2 payloadLen, .output ((block.drop 2).take payloadLen)]
    else []

def emitOriginalBlock (block : Bytes) : List FecEffect :=
  if block.length < 2 then [] else emitPayload block block.length

/-- The blocks handed to the library: the first ones in the order of their indices. -/
def blockStorage (g : FecGroup) : List (Nat × Bytes) :=
  (g.blocks.toList.take g.dataCount).map fun (idx, block) =>
    (idx, if block.length < g.blockBytes then block ++
      List.replicate (g.blockBytes - block.length) 0 else block)

/-- `origMap[idx]`: the last block with that index. -/
def findOriginal (blocks : List (Nat × Bytes)) (idx : Nat) : Option Bytes :=
  (blocks.reverse.find? fun b => b.1 = idx).map Prod.snd

/-- The originals that were not handed on yet. There is no check that a block has room for
    the length. -/
def emitRecovered (g : FecGroup) (blocks : List (Nat × Bytes)) : List FecEffect :=
  (List.range g.dataCount).flatMap fun idx =>
    if idx ∈ g.emittedOriginals then []
    else
      match findOriginal blocks idx with
      | none => []
      | some block => emitPayload block g.blockBytes

def decodeGroup (g : FecGroup) : List FecEffect × FecGroup :=
  if g.decoded then ([], g)
  else if g.dataCount ≤ g.emittedOriginals.card then ([], { g with decoded := true })
  else
    let blocks := blockStorage g
    if blocks.length < g.dataCount then ([], g)
    else
      let reads := blocks.map fun b => FecEffect.read b.2.length 0 g.blockBytes
      match cm.decode g.dataCount (g.totalCount - g.dataCount) g.blockBytes blocks with
      | none => (reads, { g with decoded := true })
      | some blocks => (reads ++ emitRecovered g blocks, { g with decoded := true })

def setGroup (d : CliFecDecoder) (groupId : Nat) (g : FecGroup) (added : Nat) : CliFecDecoder :=
  { d with
    table := { entries := d.table.entries.insert groupId g, bytes := d.table.bytes + added } }

def tryDecode (d : CliFecDecoder) (groupId : Nat) : List FecEffect × CliFecDecoder :=
  match d.group groupId with
  | none => ([], d)
  | some g =>
    let (effects, g) := decodeGroup cm g
    (effects, d.setGroup groupId g 0)

/-- The end of `addPacket`. -/
def decodeIfReady (d : CliFecDecoder) (groupId : Nat) : List FecEffect × CliFecDecoder :=
  match d.group groupId with
  | none => ([], d)
  | some g => if g.dataCount ≤ g.blocks.size then d.tryDecode cm groupId else ([], d)

/-- A block of a group that is there. -/
def storeBlock (d : CliFecDecoder) (groupId idx dataCount : Nat) (block : Bytes) :
    List FecEffect × CliFecDecoder :=
  match d.group groupId with
  | none => ([], d)
  | some g =>
    if g.decoded then ([], d)
    else if idx ∈ g.blocks then d.decodeIfReady cm groupId
    else
      let (ok, d) := d.ensureCapacity block.length false
      if ¬ ok then ([], d)
      else
        match d.group groupId with
        | none => ([], d)
        | some g =>
          let original := decide (idx < dataCount)
          let g := { g with
            blocks := g.blocks.insert idx block
            emittedOriginals :=
              if original then insert idx g.emittedOriginals else g.emittedOriginals }
          let copy := FecEffect.read (FEC_HEADER_SIZE + block.length) FEC_HEADER_SIZE block.length
          let (effects, d) := (d.setGroup groupId g block.length).decodeIfReady cm groupId
          (copy :: ((if original then emitOriginalBlock block else []) ++ effects), d)

/-- `now` is the reading of `currentTimeMs`. -/
def addPacket (d : CliFecDecoder) (now : Nat) (data : Bytes) : List FecEffect × CliFecDecoder :=
  match data with
  | gid :: idx :: n :: total :: block =>
    let header := FecEffect.read data.length 0 FEC_HEADER_SIZE
    let (groupId, idx, dataCount, totalCount) := (gid.toNat, idx.toNat, n.toNat, total.toNat)
    if dataCount < 1 ∨ 10 < dataCount ∨ totalCount < dataCount ∨ 3 * dataCount < totalCount ∨
        totalCount ≤ idx then
      ([header], d)
    else if block = [] then ([header], d)
    else
      match d.group groupId with
      | some g =>
        if g.dataCount ≠ dataCount ∨ g.totalCount ≠ totalCount ∨ g.blockBytes ≠ block.length then
          ([header], d.removeGroup groupId)
        else
          let (effects, d) := d.storeBlock cm groupId idx dataCount block
          (header :: effects, d)
      | none =>
        let (ok, d) := d.ensureCapacity block.length true
        if ¬ ok then ([header], d)
        else
          let g :=
            { dataCount := dataCount, totalCount := totalCount, blockBytes := block.length,
              createTime := now }
          let (effects, d) := (d.setGroup groupId g 0).storeBlock cm groupId idx dataCount block
          (header :: effects, d)
  | _ => ([], d)

/-! ### Runs -/

inductive Event where
  | packet (now : Nat) (data : Bytes)
  | cleanup (now : Nat)

def step (d : CliFecDecoder) : Event → List FecEffect × CliFecDecoder
  | .packet now data => d.addPacket cm now data
  | .cleanup now => ([], d.cleanup now)

def run (d : CliFecDecoder) : List Event → List FecEffect × CliFecDecoder
  | [] => ([], d)
  | e :: es =>
    let (effects, d) := d.step cm e
    let (more, d) := d.run es
    (effects ++ more, d)

end CliFecDecoder

/-- The payloads among the effects. -/
def FecEffect.outputs (effects : List FecEffect) : List Bytes :=
  effects.filterMap fun
    | .output payload => some payload
    | .read .. => none

end VlanConnect
