import Pocx.PlotFile.Crash
import Pocx.Plotter.Task

set_option autoImplicit false

namespace Pocx.DiskWriter

open ByteStore
open Pocx.Plotter
open PlotFile
open PlotFile.Crash (opened)

variable {Seed : Type}

/-- The files of an output path. The name of a plot tells its seed and its warps; the address
and the compression are those of the task. -/
abbrev Disk (Seed : Type) : Type := Seed → Nat → Extension → Option Bytes

/-- What the writer thread of a path takes from its task and from the path. -/
structure Writer (Seed : Type) where
  benchmark : Bool
  directIo : Bool
  preallocated : Seed → Nat → UInt8

/-- `PoCXPlotFile::new`; `none` where there is no plot to open. -/
def newPlotFile (numberOfWarps : Nat) (directIo create : Bool) (preallocated : Nat → UInt8)
    (files : Extension → Option Bytes) : Option File :=
  let file := opened numberOfWarps directIo files
  match files .tmp with
  | some _ => some file
  | none =>
    if create then
      (writeResumeInfo (file.setContent ⟨numberOfWarps * warpSize, preallocated⟩) 0).toOption
    else none

/-- The resume check of `Plotter::run` for a path. -/
def readResume (disk : Disk Seed) (seed : Option Seed) (numberOfWarps : Nat) : Nat :=
  match seed with
  | none => 0
  | some given =>
    match newPlotFile numberOfWarps false false (fun _ => 0) (disk given numberOfWarps) with
    | none => 0
    | some file => (readResumeInfo file).1.toOption.getD 0

section writer

variable [DecidableEq Seed] (writer : Writer Seed)

def store (disk : Disk Seed) (seed : Seed) (file : File) : Disk Seed :=
  Function.update disk seed (Function.update (disk seed) file.numberOfWarps file.files)

/-- The branch of `ProcessTask`. -/
def processTask (buffer : Bytes) (seed : Seed) (warpOffset warpsToWrite numberOfWarps : Nat)
    (disk : Disk Seed) : Except Failure (Disk Seed) :=
  if writer.benchmark then .ok disk
  else
    match newPlotFile numberOfWarps writer.directIo (warpOffset == 0) (writer.preallocated seed)
        (disk seed numberOfWarps) with
    | none => .error (.error .io)
    | some file =>
      match writeOptimisedBufferIntoPlotfile file buffer warpOffset warpsToWrite with
      | .error failure => .error failure
      | .ok (_, written) => .ok (store disk seed written)

/-- The branch of `Finalize`, whose errors are only reported. -/
def finalizeTask (seed : Seed) (numberOfWarps : Nat) (disk : Disk Seed) : Disk Seed :=
  if writer.benchmark then disk
  else
    match newPlotFile numberOfWarps writer.directIo false (writer.preallocated seed)
        (disk seed numberOfWarps) with
    | none => disk
    | some file =>
      match finalize file with
      | .error _ => disk
      | .ok finished => store disk seed finished

/-- `create_writer_thread` on the tasks that its channel delivers. Its error ends it. -/
def runWriter : List (WriterTask Bytes Seed) → Disk Seed → Except Failure (Disk Seed)
  | [], disk => .ok disk
  | .endTask :: _, disk => .ok disk
  | .processTask buffer seed warpOffset warpsToWrite numberOfWarps :: rest, disk =>
    match processTask writer buffer seed warpOffset warpsToWrite numberOfWarps disk with
    | .error failure => .error failure
    | .ok written => runWriter rest written
  | .finalize seed numberOfWarps :: rest, disk =>
    runWriter rest (finalizeTask writer seed numberOfWarps disk)

end writer

/-- What is read of a marker lets a batch that starts at `written` pass, unless there is a plot
that is cut short. -/
def Admits (short : Prop) (written : Nat) : Except PlotFileError Nat → Prop
  | .ok progress => written = progress
  | .error .noResumeInfo => written = 0
  | .error _ => short

/-- The next batch of a plot is to start at `written`, as far as the marker counts. -/
def Ready (short : Prop) (numberOfWarps : Nat) (files : Extension → Option Bytes) (written : Nat) :
    Prop :=
  match files .tmp with
  | none => written = 0
  | some _ => Admits short (written % 2 ^ 32) (readMarker (opened numberOfWarps false files))

theorem readMarker_congr {file other : File} (warps : file.numberOfWarps = other.numberOfWarps)
    (handle : file.fileHandle = other.fileHandle) (content : file.content = other.content) :
    readMarker file = readMarker other := by
  simp only [readMarker, warps, handle, content]

theorem readMarker_error {file : File} {error : PlotFileError}
    (failed : readMarker file = .error error) : error = .noResumeInfo ∨ error = .io := by
  unfold readMarker at failed
  simp only at failed
  split at failed
  · split at failed
    · split at failed
      · cases failed
      · cases failed
        exact Or.inl rfl
    · cases failed
      exact Or.inr rfl
  · cases failed
    exact Or.inl rfl

/-- What a batch leaves of the file behind its plot. -/
theorem writeFrom_files (plot final : File) (data : Bytes)
    (startWarp warpsToWrite progress total : Nat) (writable : plot.access = .readWrite)
    (handle : plot.fileHandle = true) (extension : plot.extension = .tmp)
    (done : writeFrom plot data startWarp warpsToWrite progress = .ok (total, final)) :
    if startWarp + warpsToWrite = plot.numberOfWarps then final.files .tmp = none
    else final.extension = .tmp ∧ final.files .tmp = some final.content := by
  unfold writeFrom at done
  split at done
  · cases done
  split at done
  · cases done
  split at done
  · cases done
  · rename_i written writtenEq
    obtain ⟨scoops, rfl⟩ : ∃ scoops, written = plot.setContent scoops := by
      rw [writeBatch, if_pos handle] at writtenEq
      obtain ⟨scoops, -, rfl⟩ := Option.map_eq_some_iff.mp writtenEq
      exact ⟨scoops, rfl⟩
    have again := reopened_same (plot.setContent scoops)
    have access : (plot.setContent scoops).access = .readWrite := writable
    simp only [writeResumeInfo, access, again.opened handle, ↓reduceIte] at done
    generalize (plot.setContent scoops).reopened = opened at again done
    have name : opened.extension = .tmp := again.extension.trans extension
    generalize writeMarker (plot.setContent scoops).numberOfWarps (startWarp + warpsToWrite)
      opened.content = content at done
    have present : (opened.setContent content).files .tmp = some content := by
      simp only [File.setContent, name, Function.update_self]
    have name' : (opened.setContent content).extension = .tmp := name
    by_cases last : startWarp + warpsToWrite = plot.numberOfWarps
    · rw [if_pos last]
      simp only [last, beq_self_eq_true, finishBatch, ↓reduceIte, finalize, name', present] at done
      cases done
      rfl
    · have unfinished : (startWarp + warpsToWrite == plot.numberOfWarps) = false :=
        beq_eq_false_iff_ne.mpr last
      rw [if_neg last]
      simp only [unfinished, finishBatch, Bool.false_eq_true, ↓reduceIte] at done
      cases done
      rw [content_setContent]
      exact ⟨name, present⟩

/-- A plot that the writer has opened to write the warps from `written` on. -/
structure Opened (short : Prop) (numberOfWarps written : Nat) (file : File) : Prop where
  warps : file.numberOfWarps = numberOfWarps
  access : file.access = .readWrite
  handle : file.fileHandle = true
  extension : file.extension = .tmp
  marker : readMarker file.reopened = .ok written ∨
    readMarker file.reopened = .error .noResumeInfo ∧ written = 0 ∨
    readMarker file.reopened = .error .io ∧ short

theorem admitted {short : Prop} {written : Nat} {file : File}
    (admits : Admits short written (readMarker file)) :
    readMarker file = .ok written ∨ readMarker file = .error .noResumeInfo ∧ written = 0 ∨
      readMarker file = .error .io ∧ short := by
  cases read : readMarker file with
  | ok progress =>
    rw [read] at admits
    exact Or.inl (congrArg Except.ok (Eq.symm admits))
  | error error =>
    rw [read] at admits
    rcases readMarker_error read with rfl | rfl
    · exact Or.inr (Or.inl ⟨rfl, admits⟩)
    · exact Or.inr (Or.inr ⟨rfl, admits⟩)

theorem newPlotFile_opened {short : Prop} {numberOfWarps written : Nat}
    {files : Extension → Option Bytes} (positive : 1 ≤ numberOfWarps)
    (bounded : written < 2 ^ 32) (ready : Ready short numberOfWarps files written) (directIo : Bool)
    (preallocated : Nat → UInt8) :
    ∃ file, newPlotFile numberOfWarps directIo (written == 0) preallocated files = some file ∧
      Opened short numberOfWarps written file := by
  cases present : files .tmp with
  | none =>
    simp only [Ready, present] at ready
    let fresh := (opened numberOfWarps directIo files).setContent
      ⟨numberOfWarps * warpSize, preallocated⟩
    have same := reopened_same fresh
    let file := fresh.reopened.setContent
      (writeMarker numberOfWarps 0 fresh.reopened.content)
    have made : writeResumeInfo fresh 0 = .ok file := by
      have access : fresh.access = .readWrite := rfl
      have warps : fresh.numberOfWarps = numberOfWarps := rfl
      simp only [writeResumeInfo, access, same.opened rfl, ↓reduceIte, warps, file]
    have again := reopened_same file
    have warps : file.numberOfWarps = numberOfWarps := same.warps
    refine ⟨file, ?_, warps, same.access, same.opened rfl, same.extension, Or.inl ?_⟩
    · simp only [newPlotFile, present, ready, beq_self_eq_true, ↓reduceIte]
      exact congrArg Except.toOption made
    · rw [ready]
      apply readMarker_marked file.reopened 0 fresh.reopened.content (again.opened (same.opened rfl))
      · rw [again.warps, warps]
        exact positive
      · rw [again.warps, warps, same.content, content_setContent]
      · rw [again.content, content_setContent, again.warps, warps]
  | some content =>
    have same := reopened_same (opened numberOfWarps directIo files)
    have marker : readMarker (opened numberOfWarps directIo files).reopened =
        readMarker (opened numberOfWarps false files) :=
      readMarker_congr same.warps (same.opened rfl) same.content
    refine ⟨opened numberOfWarps directIo files, ?_, rfl, rfl, rfl, rfl, ?_⟩
    · simp only [newPlotFile, present]
    · rw [marker]
      simp only [Ready, present, Nat.mod_eq_of_lt bounded] at ready
      exact admitted ready

/-- A batch that starts where its plot ends succeeds, unless the plot is cut short. -/
theorem Opened.write {short : Prop} {numberOfWarps : Nat} {file : File} {batch : Batch}
    (isOpen : Opened short numberOfWarps batch.startWarp file)
    (fits : batch.startWarp + batch.warpsToWrite ≤ numberOfWarps) :
    (∃ total final, writeOptimisedBufferIntoPlotfile file batch.data batch.startWarp
      batch.warpsToWrite = .ok (total, final)) ∨
    writeOptimisedBufferIntoPlotfile file batch.data batch.startWarp batch.warpsToWrite =
      .error (.error .io) ∧ short := by
  have inside : batch.startWarp + batch.warpsToWrite ≤ file.numberOfWarps := by
    rw [isOpen.warps]
    exact fits
  rcases isOpen.marker with marker | ⟨marker, first⟩ | ⟨marker, cut⟩
  · exact Or.inl (write_succeeds file batch isOpen.access isOpen.handle marker inside)
  · left
    have same := reopened_same file
    obtain ⟨total, final, done⟩ := writeFrom_succeeds file.reopened batch
      (same.access.trans isOpen.access) (same.opened isOpen.handle) (by rw [same.warps]; exact inside)
    refine ⟨total, final, ?_⟩
    simp only [writeOptimisedBufferIntoPlotfile, readResumeInfo, isOpen.access, marker]
    rw [← done, first]
  · right
    refine ⟨?_, cut⟩
    simp only [writeOptimisedBufferIntoPlotfile, readResumeInfo, isOpen.access, marker]

/-- The plot that a batch leaves is ready for the next one. -/
theorem Opened.written {short : Prop} {numberOfWarps : Nat} {file final : File} {data : Bytes}
    {startWarp warpsToWrite total : Nat} (positive : 1 ≤ numberOfWarps)
    (isOpen : Opened short numberOfWarps startWarp file)
    (done : writeOptimisedBufferIntoPlotfile file data startWarp warpsToWrite =
      .ok (total, final)) :
    final.numberOfWarps = numberOfWarps ∧
      if startWarp + warpsToWrite = numberOfWarps then final.files .tmp = none
      else Ready short numberOfWarps final.files (startWarp + warpsToWrite) := by
  have warps := isOpen.warps
  have same := reopened_same file
  have spec := write_spec file data startWarp warpsToWrite total final isOpen.access isOpen.handle
    (by rw [warps]; exact positive) done
  obtain ⟨progress, behind⟩ : ∃ progress,
      writeFrom file.reopened data startWarp warpsToWrite progress = .ok (total, final) := by
    simp only [writeOptimisedBufferIntoPlotfile, readResumeInfo, isOpen.access] at done
    cases marker : readMarker file.reopened with
    | ok progress =>
      rw [marker] at done
      exact ⟨progress, done⟩
    | error error =>
      rw [marker] at done
      rcases readMarker_error marker with rfl | rfl
      · exact ⟨0, done⟩
      · cases done
  have files := writeFrom_files file.reopened final data startWarp warpsToWrite progress total
    (same.access.trans isOpen.access) (same.opened isOpen.handle)
    (same.extension.trans isOpen.extension) behind
  rw [same.warps, warps] at files
  refine ⟨spec.warps.trans warps, ?_⟩
  split at files
  · rename_i last
    rw [if_pos last]
    exact files
  · rename_i more
    rw [if_neg more]
    obtain ⟨name, present⟩ := files
    obtain ⟨scoops, scoopsEq, content⟩ := spec.content
    have grown := (writeScoops_byte file.numberOfWarps data file.content scoops startWarp
      warpsToWrite numScoops (Nat.le_refl _) spec.fits spec.len scoopsEq).1
    have view : (opened numberOfWarps false final.files).content = final.content := by
      simp only [File.content, opened, present, Option.getD_some]
    have read : readMarker (opened numberOfWarps false final.files) =
        .ok ((startWarp + warpsToWrite) % 2 ^ 32) := by
      rw [← UInt32.toNat_ofNat']
      apply readMarker_marked _ _ scoops rfl positive
      · have len := spec.len
        rw [warps] at len
        exact Nat.le_trans len grown
      · rw [view, content, warps]
        rfl
    simp only [Ready, present]
    rw [read]
    rfl

end Pocx.DiskWriter
