import Pocx.Lib.PairMerge
import Pocx.Miner.Disk
import Pocx.Miner.Hasher
import Pocx.PlotFile.File

set_option autoImplicit false

namespace Pocx.ReadDisk

open ByteStore
open PlotFile (scoopSize numScoops fileOffset)
open Hashlib
open Hasher (HashingTask hexEncode)

structure CompressionConfig where
  minCompressionLevel : Nat
  targetCompressionLevel : Nat
  maxCompressionSteps : Nat

inductive CompressionAction
  | skip (reason : String)
  | mineNormal
  | compressOnFly (steps : Nat)
deriving DecidableEq

/-- `determine_compression_action` -/
def determineCompressionAction (plotCompression minRequired targetLevel maxStepsPossible : Nat) :
    CompressionAction :=
  if targetLevel < plotCompression then .skip "compression higher than chain target"
  else if minRequired ≤ plotCompression then .mineNormal
  else
    let stepsNeeded := minRequired - plotCompression
    if maxStepsPossible < stepsNeeded then
      .skip "insufficient buffer size for required compression"
    else .compressOnFly stepsNeeded

/-- The bytes one XOR of `compress_pairs_*` takes. The vector paths are built for x86-64
with the `simd` feature. -/
def xorChunk (simd : Bool) : Target → Nat
  | .x86 avx512f avx2 avx sse2 =>
    if simd then
      if avx512f then 64 else if avx2 then 32 else if avx then 32 else if sse2 then 16 else 1
    else 1
  | .aarch64 => 1
  | .other => 1

/-- `compress_pairs_*` -/
def compressPairs (chunk : Nat) (buffer : Bytes) (pairs : Nat) : Bytes :=
  { buffer with
    byte := PairMerge.mergePairs (· ^^^ ·) (numScoops * scoopSize) chunk pairs buffer.byte }

/-- `compress_warps_inline`: the buffer and the warps left in it. -/
def compressWarpsInline (chunk : Nat) (buffer : Bytes) (warpCount compressionSteps : Nat) :
    Bytes × Nat :=
  (List.range compressionSteps).foldl
    (fun state _ => (compressPairs chunk state.1 (state.2 / 2), state.2 / 2)) (buffer, warpCount)

/-- What `read_disk` uses of a `PoCXPlotFile` and its meta data. -/
structure Plot where
  base58Decoded : U8s 20
  seed : String
  compression : Nat
  numberOfWarps : Nat
  content : Bytes
  readProgress : Nat

inductive ReadError
  | invalidScoop (scoop : Nat)
  | warpOutOfRange (warp max : Nat)
  | io

/-- `file_offset_warp` -/
def Plot.fileOffsetWarp (plot : Plot) (scoop warp : Nat) : Except ReadError Nat :=
  if numScoops ≤ scoop then .error (.invalidScoop scoop)
  else if plot.numberOfWarps ≤ warp then .error (.warpOutOfRange warp (plot.numberOfWarps - 1))
  else .ok (fileOffset scoop warp plot.numberOfWarps)

/-- `PoCXPlotFile::read`: the filled buffer and the warps read. -/
def Plot.read (plot : Plot) (readProgress : Nat) (bs : Bytes) (scoop : Nat) :
    Except ReadError (Bytes × Nat) :=
  let warpsToRead := Disk.warpsToRead plot.numberOfWarps readProgress bs.len
  match plot.fileOffsetWarp scoop readProgress with
  | .error error => .error error
  | .ok startOffset =>
    match plot.content.slice startOffset (warpsToRead * numScoops * scoopSize) with
    | none => .error .io
    | some data => .ok (writeAt bs 0 data, warpsToRead)

structure ReadReply where
  buffer : Bytes
  warpOffset : Nat
  numberOfWarps : Nat
  accountId : String
  seed : String
  compressionLevel : Nat

/-- The messages of a reader. A data message also names its plot. -/
inductive ScanMessage
  | scanFinished
  | scanInterrupted
  | warpsProcessed (warps : Nat)
  | data (plot : Nat) (reply : ReadReply)

/-- What other threads decide: the buffers received in turn, until the channel closes,
and the interrupt flag behind each read. -/
structure Supply where
  rxEmptyBuffer : Nat → Option Bytes
  interrupt : Nat → Bool

/-- The buffers received and the reads so far, and what was sent. -/
structure Reader where
  buffers : Nat
  reads : Nat
  messages : List ScanMessage

def Reader.send (reader : Reader) (message : ScanMessage) : Reader :=
  { reader with messages := reader.messages ++ [message] }

/-- The locals of the loop that fills a buffer. -/
structure Filling where
  bs : Bytes
  readProgress : Nat
  totalWarpsInBuffer : Nat
  reader : Reader

section Loops

variable (supply : Supply) (plot : Plot) (scoop : Nat)

/-- The loop that fills a buffer. An interrupted reader returns. -/
def fillBuffer : Nat → Filling → Except Reader Filling
  | 0, filling => .ok filling
  | fuel + 1, filling =>
    if Disk.fillsOn plot.numberOfWarps filling.readProgress filling.bs.len
        filling.totalWarpsInBuffer then
      match plot.read filling.readProgress filling.bs scoop with
      | .error _ => .ok { filling with readProgress := plot.numberOfWarps }
      | .ok (bs, warpsRed) =>
        if warpsRed = 0 then .ok filling
        else
          let reader := filling.reader.send (.warpsProcessed warpsRed)
          if supply.interrupt reader.reads then .error (reader.send .scanInterrupted)
          else
            fillBuffer fuel
              { bs := bs
                readProgress := filling.readProgress + warpsRed
                totalWarpsInBuffer := filling.totalWarpsInBuffer + warpsRed
                reader := { reader with reads := reader.reads + 1 } }
    else .ok filling

/-- The buffer, the warps and the level that go to the hasher. There is a configuration
whenever the action is to compress. -/
def finalBuffer (chunk : Nat) (action : CompressionAction) (bs : Bytes) (totalWarpsInBuffer : Nat) :
    Bytes × Nat × Nat :=
  match action with
  | .compressOnFly steps =>
    let compressibleWarps :=
      if totalWarpsInBuffer % 2 = 1 then totalWarpsInBuffer - 1 else totalWarpsInBuffer
    if compressibleWarps = 0 then (bs, 0, plot.compression)
    else
      let compressed := compressWarpsInline chunk bs compressibleWarps steps
      (compressed.1, compressed.2, (plot.compression + steps % 256) % 256)
  | .skip _ | .mineNormal => (bs, totalWarpsInBuffer, plot.compression)

def compressedWarpOffset (action : CompressionAction) (bufferStartOffset : Nat) : Nat :=
  match action with
  | .compressOnFly steps => bufferStartOffset >>> steps
  | .skip _ | .mineNormal => bufferStartOffset

/-- The loop over the buffers of one plot. -/
def readPlot (chunk : Nat) (action : CompressionAction) (index : Nat) :
    Nat → Nat → Reader → Except Reader Reader
  | 0, _, reader => .ok reader
  | fuel + 1, readProgress, reader =>
    if readProgress < plot.numberOfWarps then
      match supply.rxEmptyBuffer reader.buffers with
      | none => .error reader
      | some buffer =>
        match fillBuffer supply plot scoop (plot.numberOfWarps + 1)
          ⟨buffer, readProgress, 0, { reader with buffers := reader.buffers + 1 }⟩ with
        | .error reader => .error reader
        | .ok filling =>
          if filling.totalWarpsInBuffer = 0 then .ok filling.reader
          else
            let final := finalBuffer plot chunk action filling.bs filling.totalWarpsInBuffer
            let reader :=
              if 0 < final.2.1 then
                filling.reader.send
                  (.data index
                    { buffer := final.1
                      warpOffset := compressedWarpOffset action readProgress
                      numberOfWarps := final.2.1
                      accountId := hexEncode plot.base58Decoded
                      seed := plot.seed
                      compressionLevel := final.2.2 })
              else filling.reader
            readPlot chunk action index fuel filling.readProgress reader
    else .ok reader

/-- The action for a plot. Without a configuration every plot is mined as it is. -/
def plotAction (config : Option CompressionConfig) : CompressionAction :=
  match config with
  | some config =>
    determineCompressionAction plot.compression config.minCompressionLevel
      config.targetCompressionLevel config.maxCompressionSteps
  | none => .mineNormal

end Loops

/-- The loop over the plots of a disk. -/
def readPlots (supply : Supply) (chunk : Nat) (config : Option CompressionConfig) (scoop : Nat) :
    List (Plot × Nat) → Reader → Except Reader Reader
  | [], reader => .ok reader
  | (plot, index) :: rest, reader =>
    match plotAction plot config with
    | .skip _ => readPlots supply chunk config scoop rest reader
    | action =>
      match readPlot supply plot scoop chunk action index (plot.numberOfWarps + 1)
        plot.readProgress reader with
      | .error reader => .error reader
      | .ok reader => readPlots supply chunk config scoop rest reader

/-- `read_disk`: what it sends. -/
def readDisk (supply : Supply) (chunk : Nat) (config : Option CompressionConfig) (scoop : Nat)
    (plots : List Plot) : List ScanMessage :=
  match readPlots supply chunk config scoop plots.zipIdx ⟨0, 0, []⟩ with
  | .error reader => reader.messages
  | .ok reader => (reader.send .scanFinished).messages

/-- What the tasks of a round have in common. -/
structure Round where
  chainId : Nat
  chainName : String
  blockCount : Nat
  generationSignatureBytes : U8s 32
  blockHash : String
  blockHeight : Nat
  baseTarget : UInt64

/-- The task that the round makes of a data message. -/
def Round.hashingTask (round : Round) (reply : ReadReply) : HashingTask where
  buffer := reply.buffer
  chainId := round.chainId
  chainName := round.chainName
  blockCount := round.blockCount
  generationSignatureBytes := round.generationSignatureBytes
  accountId := reply.accountId
  seed := reply.seed
  blockHash := round.blockHash
  blockHeight := round.blockHeight
  baseTarget := round.baseTarget
  startWarp := reply.warpOffset
  numberOfWarps := reply.numberOfWarps
  compressionLevel := reply.compressionLevel

end Pocx.ReadDisk
