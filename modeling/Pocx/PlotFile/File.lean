import Mathlib.Logic.Function.Basic
import Pocx.Lib.ByteStore
import Pocx.PlotFile.Layout

set_option autoImplicit false

namespace Pocx.PlotFile

open ByteStore

inductive AccessType
  | read
  | readWrite
  | dummy
deriving DecidableEq

/-- The errors of the functions below; `io` stands for every failing system call. -/
inductive PlotFileError
  | io
  | resumeGap (expected actual : Nat)
  | writeExceedsEof
  | noResumeInfo
  | readOnlyAccess
deriving DecidableEq

/-- A call returns an error, or panics on a slice that is out of range. -/
inductive Failure
  | error (error : PlotFileError)
  | panic

/-- The extension of `filename_and_path`; its stem never changes. -/
inductive Extension
  | tmp
  | pocx
deriving DecidableEq

/-- A `PoCXPlotFile` together with the two files that may carry its stem. -/
structure File where
  numberOfWarps : Nat
  access : AccessType
  directIo : Bool
  fileHandle : Bool
  extension : Extension
  files : Extension → Option Bytes

/-- What the handle reads and writes. -/
def File.content (file : File) : Bytes := (file.files file.extension).getD ⟨0, fun _ => 0⟩

def File.setContent (file : File) (content : Bytes) : File :=
  { file with files := Function.update file.files file.extension (some content) }

/-- `open_rw` and `open_rw_using_direct_io` create the file if it is missing. -/
def File.openRw (file : File) : File :=
  { file.setContent file.content with fileHandle := true }

/-- `RESUME_MAGIC` -/
def resumeMagic : Bytes where
  len := 4
  byte := fun i => if i % 2 = 0 then 0xAF else 0xFE

/-- `as_u8_le` of a `u32` -/
def asU8Le (value : UInt32) : Bytes where
  len := 4
  byte := fun i => (value.toNat / 256 ^ i).toUInt8

/-- `as_u32_le` -/
def asU32Le (bytes : Bytes) : UInt32 :=
  (bytes.byte 0).toUInt32 + (bytes.byte 1).toUInt32 <<< 8 + (bytes.byte 2).toUInt32 <<< 16 +
    (bytes.byte 3).toUInt32 <<< 24

/-- The offset of the resume marker, the last 8 bytes of the plot. -/
def markerOffset (numberOfWarps : Nat) : Nat := numberOfWarps * warpSize - 8

/-- Under direct I/O the resume functions open the file again, without it. -/
def File.reopened (file : File) : File := if file.directIo then file.openRw else file

/-- `read_resume_info` behind the opening: eight bytes at the end of the plot. -/
def readMarker (opened : File) : Except PlotFileError Nat :=
  let offset := markerOffset opened.numberOfWarps
  if opened.fileHandle then
    match opened.content.slice offset 4, opened.content.slice (offset + 4) 4 with
    | some progress, some doubleMonkey =>
      if (List.range 4).all fun i => doubleMonkey.byte i == resumeMagic.byte i then
        .ok (asU32Le progress).toNat
      else .error .noResumeInfo
    | _, _ => .error .io
  else .error .noResumeInfo

def readResumeInfo (file : File) : Except PlotFileError Nat × File :=
  match file.access with
  | .dummy => (.ok 0, file)
  | .read | .readWrite => (readMarker file.reopened, file.reopened)

/-- The two writes of a marker. -/
def writeMarker (numberOfWarps warpsWritten : Nat) (content : Bytes) : Bytes :=
  let offset := markerOffset numberOfWarps
  writeAt (writeAt content offset (asU8Le (UInt32.ofNat warpsWritten))) (offset + 4) resumeMagic

def writeResumeInfo (file : File) (warpsWritten : Nat) : Except PlotFileError File :=
  match file.access with
  | .readWrite =>
    let opened := file.reopened
    if opened.fileHandle then
      .ok (opened.setContent (writeMarker file.numberOfWarps warpsWritten opened.content))
    else .ok opened
  | .read => .error .readOnlyAccess
  | .dummy => .ok file

/-- The offset of a scoop of a warp, in a plot or in a buffer of `numberOfWarps`. -/
def fileOffset (scoop warp numberOfWarps : Nat) : Nat :=
  scoop * numberOfWarps * numScoops * scoopSize + warp * numScoops * scoopSize

/-- The writes of the first `scoops` scoops; `none` where a slice is out of range. -/
def writeScoops (numberOfWarps : Nat) (data : Bytes) (startWarp warpsToWrite : Nat) :
    Nat → Bytes → Option Bytes
  | 0, content => some content
  | scoop + 1, content =>
    (writeScoops numberOfWarps data startWarp warpsToWrite scoop content).bind fun before =>
      (data.slice (fileOffset scoop 0 (data.len / warpSize))
        (warpsToWrite * numScoops * scoopSize)).map fun chunk =>
          writeAt before (fileOffset scoop startWarp numberOfWarps) chunk

/-- What `new` leaves where there was no plot: preallocated bytes and a marker of 0 warps. -/
def create (numberOfWarps : Nat) (directIo : Bool) (preallocated : Nat → UInt8) : File where
  numberOfWarps := numberOfWarps
  access := .readWrite
  directIo := directIo
  fileHandle := true
  extension := .tmp
  files := fun extension =>
    match extension with
    | .tmp => some (writeMarker numberOfWarps 0 ⟨numberOfWarps * warpSize, preallocated⟩)
    | .pocx => none

/-- `finalize`: rename a `.tmp` file to `.pocx`, over any file of that name. -/
def finalize (file : File) : Except PlotFileError File :=
  match file.extension with
  | .pocx => .ok file
  | .tmp =>
    match file.files .tmp with
    | none => .error .io
    | some content =>
      .ok
        { file with
          fileHandle := false
          extension := .pocx
          files := fun extension =>
            match extension with
            | .tmp => none
            | .pocx => some content }

/-- The writes of a batch to an open file, before its marker. Without a handle nothing
is written. -/
def writeBatch (file : File) (data : Bytes) (startWarp warpsToWrite : Nat) : Option File :=
  if file.fileHandle then
    (writeScoops file.numberOfWarps data startWarp warpsToWrite numScoops file.content).map
      file.setContent
  else some file

/-- The last batch renames the file. -/
def finishBatch (marked : File) (finished : Bool) : Except PlotFileError File :=
  if finished then finalize marked else .ok marked

/-- `write_optimised_buffer_into_plotfile` behind the reading of the progress. -/
def writeFrom (opened : File) (data : Bytes) (startWarp warpsToWrite progress : Nat) :
    Except Failure (Nat × File) :=
  if startWarp ≠ progress then .error (.error (.resumeGap progress startWarp))
  else if opened.numberOfWarps < startWarp + warpsToWrite then .error (.error .writeExceedsEof)
  else
    match writeBatch opened data startWarp warpsToWrite with
    | none => .error .panic
    | some written =>
      match writeResumeInfo written (startWarp + warpsToWrite) with
      | .error error => .error (.error error)
      | .ok marked =>
        match finishBatch marked (startWarp + warpsToWrite == opened.numberOfWarps) with
        | .error error => .error (.error error)
        | .ok finished => .ok (numScoops * (warpsToWrite * numScoops * scoopSize), finished)

/-- `write_optimised_buffer_into_plotfile`. System calls succeed, apart from reads
behind the end of the file. -/
def writeOptimisedBufferIntoPlotfile (file : File) (data : Bytes)
    (startWarp warpsToWrite : Nat) : Except Failure (Nat × File) :=
  match file.access with
  | .readWrite =>
    match readResumeInfo file with
    | (.ok progress, opened) => writeFrom opened data startWarp warpsToWrite progress
    | (.error .noResumeInfo, opened) => writeFrom opened data startWarp warpsToWrite 0
    | (.error error, _) => .error (.error error)
  | .dummy => .ok (warpsToWrite * numScoops * numScoops * scoopSize, file)
  | .read => .error (.error .readOnlyAccess)

/-- A call of `write_optimised_buffer_into_plotfile`. Its buffer holds the warps to write. -/
structure Batch where
  data : Bytes
  startWarp : Nat
  warpsToWrite : Nat
  holds : warpsToWrite * warpSize ≤ data.len

def Batch.covers (batch : Batch) (warp : Nat) : Bool :=
  decide (batch.startWarp ≤ warp) && decide (warp < batch.startWarp + batch.warpsToWrite)

/-- The byte of a buffer for a position of the plot. -/
def Batch.byteFor (batch : Batch) (scoop warp nonce offset : Nat) : UInt8 :=
  batch.data.byte
    (fileOffset scoop (warp - batch.startWarp) (batch.data.len / warpSize) +
      (nonce * scoopSize + offset))

/-- A run of successful calls. -/
def writeBatches : List Batch → File → Except Failure File
  | [], file => .ok file
  | batch :: rest, file =>
    match writeOptimisedBufferIntoPlotfile file batch.data batch.startWarp batch.warpsToWrite with
    | .error failure => .error failure
    | .ok (_, written) => writeBatches rest written

/-- What the batch that covered the warp, the last one, supplied for a position. -/
def supplied (batches : List Batch) (scoop warp nonce offset : Nat) : Option UInt8 :=
  (batches.reverse.find? fun batch => batch.covers warp).map fun batch =>
    batch.byteFor scoop warp nonce offset

/-- The byte of a plot at a position. -/
def File.byteAt (file : File) (scoop warp nonce offset : Nat) : UInt8 :=
  file.content.byte (fileOffset scoop warp file.numberOfWarps + (nonce * scoopSize + offset))

/-- The eight bytes of the marker that `write_resume_info` puts at the end of a plot. -/
def markerByte (warpsWritten i : Nat) : UInt8 :=
  if i < 4 then (asU8Le (UInt32.ofNat warpsWritten)).byte i else resumeMagic.byte (i - 4)

end Pocx.PlotFile
