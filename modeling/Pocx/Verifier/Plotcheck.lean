import Pocx.Hashlib.ValidationRange
import Pocx.Miner.MinedPlot
import Pocx.PlotFile.Reading

set_option autoImplicit false

namespace Pocx.Plotcheck

open ByteStore
open Hashlib (HashError Platform Scoop U8s findBestQuality scoopAddress scoopAddress_cell)
open Panicking (Panic fit fit_ok forM_eq_ok forM_stops ok_bind)
open PlotFile (File ReadFailure scoopSize numScoops warpSize)

variable {Payload Seed : Type}

/-- A plot file that is open for reading. -/
structure Plotfile (Payload Seed : Type) where
  file : File
  base58Decoded : Payload
  seedDecoded : Seed
  compression : Nat

/-- `generate_scoop`: address payload, seed, scoop, nonce and compression. -/
abbrev GenerateScoop (Payload Seed : Type) :=
  Payload → Seed → Nat → Nat → Nat → Except Panic (Except HashError Scoop)

/-- Why a mode stops before its end. -/
inductive Stop
  | panicked (panic : Panic)
  | invalidScoop (scoop : Nat)
  | readFailed (error : ReadFailure)
  | generateFailed (error : HashError)
  | verificationFailed (scoop nonce : Nat)

/-- What the generator of `partial` yields for the seed of a plot: two shuffles, and in each turn a
number of a range. -/
structure SmallRng where
  scoops : Nat → Nat
  noncesInWarp : Nat → Nat
  randomRange : Nat → Nat → Nat
  scoops_shuffle : ((List.range numScoops).map scoops).Perm (List.range numScoops)
  noncesInWarp_shuffle : ((List.range numScoops).map noncesInWarp).Perm (List.range numScoops)
  randomRange_lt : ∀ turn range, 0 < range → randomRange turn range < range

/-- What the generator of `random` yields in each turn. -/
structure ThreadRng where
  scoop : Nat → Nat
  nonceInWarp : Nat → Nat
  randomRange : Nat → Nat → Nat
  scoop_lt : ∀ turn, scoop turn < numScoops
  nonceInWarp_lt : ∀ turn, nonceInWarp turn < numScoops
  randomRange_lt : ∀ turn range, 0 < range → randomRange turn range < range

/-- What `single` prints of a nonce that it verifies. -/
structure Report where
  qualityRaw : UInt64
  qualityAdj : UInt64

def Same (hash : Bytes) (hashRef : Scoop) : Prop :=
  ∀ z : Fin scoopSize, hash.byte z = hashRef.byte z

instance Same.decidable (hash : Bytes) (hashRef : Scoop) : Decidable (Same hash hashRef) :=
  inferInstanceAs (Decidable (∀ _ : Fin scoopSize, _))

section Modes

variable (generateScoop : GenerateScoop Payload Seed) (overflowChecks : Bool)
  (plotfile : Plotfile Payload Seed)

/-- The hash of the plot file and that to verify it. -/
def hashes (scoop nonce : Nat) : Except Stop (Bytes × Scoop) := do
  let hash ← (plotfile.file.readNonce scoop nonce).mapError .readFailed
  let generated ← (generateScoop plotfile.base58Decoded plotfile.seedDecoded scoop nonce
    plotfile.compression).mapError .panicked
  let hashRef ← generated.mapError .generateFailed
  return (hash, hashRef)

def verify (scoop nonce : Nat) : Except Stop Unit := do
  let found ← hashes generateScoop plotfile scoop nonce
  if Same found.1 found.2 then .ok () else .error (.verificationFailed scoop nonce)

/-- `warp * NUM_SCOOPS + nonce_in_warp` -/
def nonceAt (warp nonceInWarp : Nat) : Except Stop Nat := do
  let start ← (fit 64 overflowChecks (warp * numScoops)).mapError .panicked
  (fit 64 overflowChecks (start + nonceInWarp)).mapError .panicked

def check (scoop warp nonceInWarp : Nat) : Except Stop Unit := do
  let nonce ← nonceAt overflowChecks warp nonceInWarp
  verify generateScoop plotfile scoop nonce

/-- The length of the progress bar of `complete`. -/
def barLength : Except Stop Nat := do
  let nonces ← (fit 64 overflowChecks (plotfile.file.numberOfWarps * numScoops)).mapError .panicked
  (fit 64 overflowChecks (nonces * numScoops)).mapError .panicked

def complete : Except Stop Unit := do
  let _ ← barLength overflowChecks plotfile
  (List.range numScoops).forM fun scoop =>
    (List.range plotfile.file.numberOfWarps).forM fun warp =>
      (List.range numScoops).forM fun nonceInWarp =>
        check generateScoop overflowChecks plotfile scoop warp nonceInWarp

/-- `random_range` of an empty range panics. -/
def drawWarp (randomRange : Nat → Nat → Nat) (turn : Nat) : Except Stop Nat :=
  if plotfile.file.numberOfWarps = 0 then .error (.panicked .failedAssertion)
  else .ok (randomRange turn plotfile.file.numberOfWarps)

/-- `partial` -/
def partialCheck (rng : SmallRng) : Except Stop Unit :=
  (List.range numScoops).forM fun i => do
    let warp ← drawWarp plotfile rng.randomRange i
    check generateScoop overflowChecks plotfile (rng.scoops i) warp (rng.noncesInWarp i)

/-- The first turns of the loop of `random`, which has no end of its own. -/
def random (rng : ThreadRng) (turns : Nat) : Except Stop Unit :=
  (List.range turns).forM fun turn => do
    let warp ← drawWarp plotfile rng.randomRange turn
    check generateScoop overflowChecks plotfile (rng.scoop turn) warp (rng.nonceInWarp turn)

/-- `single` behind the reading of its arguments. -/
def single (platform : Platform) (scoop nonce : Nat) (generationSignature : U8s 32)
    (baseTarget : UInt64) : Except Stop Report := do
  if numScoops ≤ scoop then .error (.invalidScoop scoop)
  else
    let found ← hashes generateScoop plotfile scoop nonce
    let quality := (findBestQuality platform found.1 1 generationSignature).1
    if baseTarget = 0 then .error (.panicked .divisionByZero)
    else if Same found.1 found.2 then .ok ⟨quality, quality / baseTarget⟩
    else .error (.verificationFailed scoop nonce)

end Modes

/-- A plot file with all its bytes, whose scoops can be generated. -/
structure Checkable (generateScoop : GenerateScoop Payload Seed) (plotfile : Plotfile Payload Seed)
    (reference : Nat → Nat → Scoop) : Prop where
  handle : plotfile.file.fileHandle = true
  access : plotfile.file.access ≠ .dummy
  len : plotfile.file.numberOfWarps * warpSize ≤ plotfile.file.content.len
  bounded : plotfile.file.numberOfWarps * warpSize < 2 ^ 64
  generates : ∀ scoop nonce, scoop < numScoops → nonce < plotfile.file.numberOfWarps * numScoops →
    generateScoop plotfile.base58Decoded plotfile.seedDecoded scoop nonce plotfile.compression =
      .ok (.ok (reference scoop nonce))

/-- A scoop of the plot file. -/
def Plotfile.scoopOf (plotfile : Plotfile Payload Seed) (scoop nonce : Nat) : Bytes :=
  ⟨scoopSize, fun i => plotfile.file.content.byte
    (scoopAddress (plotfile.file.numberOfWarps * numScoops) scoop nonce + i)⟩

/-- The last nonce of a plot is the last of its last warp. -/
theorem last_cell {numberOfWarps warp nonceInWarp : Nat} (nonceLt : nonceInWarp < numScoops)
    (last : warp * numScoops + nonceInWarp + 1 = numberOfWarps * numScoops) :
    warp + 1 = numberOfWarps ∧ nonceInWarp + 1 = numScoops := by
  simp only [numScoops] at nonceLt last ⊢
  omega

section Checks

variable {generateScoop : GenerateScoop Payload Seed} {plotfile : Plotfile Payload Seed}
  {reference : Nat → Nat → Scoop} (checkable : Checkable generateScoop plotfile reference)
include checkable

theorem hashes_ok {scoop nonce : Nat} (scoopLt : scoop < numScoops)
    (nonceLt : nonce < plotfile.file.numberOfWarps * numScoops) :
    hashes generateScoop plotfile scoop nonce =
      .ok (plotfile.scoopOf scoop nonce, reference scoop nonce) := by
  have located := PlotFile.fileOffsetNonce_ok checkable.bounded scoopLt nonceLt
  rw [← scoopAddress_cell, Nat.add_zero] at located
  have inside := Strided.cell_lt numScoops (plotfile.file.numberOfWarps * numScoops) scoopSize scoop
    nonce (scoopSize - 1) scoopLt nonceLt (by decide)
  rw [PlotFile.plot_cells, ← scoopAddress_cell] at inside
  have whole : scoopAddress (plotfile.file.numberOfWarps * numScoops) scoop nonce + scoopSize ≤
      plotfile.file.content.len := by
    have len := checkable.len
    have positive : 0 < scoopSize := by decide
    omega
  have read : plotfile.file.readNonce scoop nonce = .ok (plotfile.scoopOf scoop nonce) := by
    simp only [File.readNonce, located, checkable.handle, slice_some whole, ↓reduceIte]
    cases access : plotfile.file.access with
    | read => rfl
    | readWrite => rfl
    | dummy => exact absurd access checkable.access
  rw [hashes, read, checkable.generates scoop nonce scoopLt nonceLt]
  rfl

theorem verify_eq {scoop nonce : Nat} (scoopLt : scoop < numScoops)
    (nonceLt : nonce < plotfile.file.numberOfWarps * numScoops) :
    verify generateScoop plotfile scoop nonce =
      if Same (plotfile.scoopOf scoop nonce) (reference scoop nonce) then .ok ()
      else .error (.verificationFailed scoop nonce) := by
  rw [verify, hashes_ok checkable scoopLt nonceLt]
  rfl

/-- The nonces of a plot file stay in 64 bits. -/
theorem nonces_small : plotfile.file.numberOfWarps * numScoops * numScoops < 2 ^ 64 := by
  have size : plotfile.file.numberOfWarps * numScoops * numScoops * scoopSize =
      plotfile.file.numberOfWarps * warpSize := by
    simp only [warpSize, PlotFile.nonceSize, Nat.mul_assoc]
  have bounded := checkable.bounded
  rw [← size] at bounded
  exact Nat.lt_of_le_of_lt (Nat.le_mul_of_pos_right _ (by decide)) bounded

theorem check_eq (overflowChecks : Bool) {scoop warp nonceInWarp : Nat}
    (scoopLt : scoop < numScoops) (warpLt : warp < plotfile.file.numberOfWarps)
    (nonceLt : nonceInWarp < numScoops) :
    check generateScoop overflowChecks plotfile scoop warp nonceInWarp =
      if Same (plotfile.scoopOf scoop (warp * numScoops + nonceInWarp))
          (reference scoop (warp * numScoops + nonceInWarp)) then .ok ()
      else .error (.verificationFailed scoop (warp * numScoops + nonceInWarp)) := by
  have small := nonces_small checkable
  have column := Strided.index_lt _ numScoops warp nonceInWarp warpLt nonceLt
  have whole : plotfile.file.numberOfWarps * numScoops ≤
      plotfile.file.numberOfWarps * numScoops * numScoops := Nat.le_mul_of_pos_right _ (by decide)
  have nonce : nonceAt overflowChecks warp nonceInWarp = .ok (warp * numScoops + nonceInWarp) := by
    have start : warp * numScoops < 2 ^ 64 := by omega
    have sum : warp * numScoops + nonceInWarp < 2 ^ 64 := by omega
    rw [nonceAt, fit_ok start]
    exact congrArg (Except.mapError Stop.panicked) (fit_ok sum overflowChecks)
  rw [check, nonce]
  exact verify_eq checkable scoopLt column

theorem check_ok_iff (overflowChecks : Bool) {scoop warp nonceInWarp : Nat}
    (scoopLt : scoop < numScoops) (warpLt : warp < plotfile.file.numberOfWarps)
    (nonceLt : nonceInWarp < numScoops) :
    check generateScoop overflowChecks plotfile scoop warp nonceInWarp = .ok () ↔
      Same (plotfile.scoopOf scoop (warp * numScoops + nonceInWarp))
        (reference scoop (warp * numScoops + nonceInWarp)) := by
  rw [check_eq checkable overflowChecks scoopLt warpLt nonceLt]
  split
  · exact iff_of_true rfl ‹_›
  · exact iff_of_false nofun ‹_›

theorem barLength_ok (overflowChecks : Bool) :
    barLength overflowChecks plotfile =
      .ok (plotfile.file.numberOfWarps * numScoops * numScoops) := by
  have small := nonces_small checkable
  have nonces : plotfile.file.numberOfWarps * numScoops < 2 ^ 64 :=
    Nat.lt_of_le_of_lt (Nat.le_mul_of_pos_right _ (by decide)) small
  rw [barLength, fit_ok nonces]
  exact congrArg (Except.mapError Stop.panicked) (fit_ok small overflowChecks)

theorem complete_eq (overflowChecks : Bool) :
    complete generateScoop overflowChecks plotfile =
      (List.range numScoops).forM fun scoop =>
        (List.range plotfile.file.numberOfWarps).forM fun warp =>
          (List.range numScoops).forM fun nonceInWarp =>
            check generateScoop overflowChecks plotfile scoop warp nonceInWarp := by
  rw [complete, barLength_ok checkable, ok_bind]

/-- `complete` passes the plot files whose scoops are all right. -/
theorem complete_ok_iff (overflowChecks : Bool) :
    complete generateScoop overflowChecks plotfile = .ok () ↔
      ∀ scoop nonce, scoop < numScoops → nonce < plotfile.file.numberOfWarps * numScoops →
        Same (plotfile.scoopOf scoop nonce) (reference scoop nonce) := by
  rw [complete_eq checkable]
  simp only [forM_eq_ok, List.mem_range]
  constructor
  · intro passes scoop nonce scoopLt nonceLt
    have warpLt : nonce / numScoops < plotfile.file.numberOfWarps :=
      (Nat.div_lt_iff_lt_mul (by decide)).mpr nonceLt
    have inWarp : nonce % numScoops < numScoops := Nat.mod_lt _ (by decide)
    have passed := passes scoop scoopLt _ warpLt _ inWarp
    rw [check_ok_iff checkable overflowChecks scoopLt warpLt inWarp, Nat.div_add_mod'] at passed
    exact passed
  · intro right scoop scoopLt warp warpLt nonceInWarp nonceLt
    rw [check_ok_iff checkable overflowChecks scoopLt warpLt nonceLt]
    exact right scoop _ scoopLt (Strided.index_lt _ _ _ _ warpLt nonceLt)

/-- Where only the last scoop of the last nonce is wrong, `complete` stops there. -/
theorem complete_stops (overflowChecks : Bool) (positive : 1 ≤ plotfile.file.numberOfWarps)
    (right : ∀ scoop nonce, scoop < numScoops → nonce < plotfile.file.numberOfWarps * numScoops →
      ¬ (scoop + 1 = numScoops ∧ nonce + 1 = plotfile.file.numberOfWarps * numScoops) →
      Same (plotfile.scoopOf scoop nonce) (reference scoop nonce))
    (wrong : ¬ Same
      (plotfile.scoopOf (numScoops - 1) (plotfile.file.numberOfWarps * numScoops - 1))
      (reference (numScoops - 1) (plotfile.file.numberOfWarps * numScoops - 1))) :
    complete generateScoop overflowChecks plotfile =
      .error (.verificationFailed (numScoops - 1)
        (plotfile.file.numberOfWarps * numScoops - 1)) := by
  have split (count : Nat) (some : 1 ≤ count) :
      List.range count = List.range (count - 1) ++ (count - 1) :: [] := by
    rw [← List.range_succ, ← Nat.pred_eq_sub_one, Nat.succ_pred_eq_of_pos some]
  have passes (scoop warp nonceInWarp : Nat) (scoopLt : scoop < numScoops)
      (warpLt : warp < plotfile.file.numberOfWarps) (nonceLt : nonceInWarp < numScoops)
      (before : ¬ (scoop + 1 = numScoops ∧ warp + 1 = plotfile.file.numberOfWarps ∧
        nonceInWarp + 1 = numScoops)) :
      check generateScoop overflowChecks plotfile scoop warp nonceInWarp = .ok () := by
    rw [check_ok_iff checkable overflowChecks scoopLt warpLt nonceLt]
    refine right scoop _ scoopLt (Strided.index_lt _ _ _ _ warpLt nonceLt) ?_
    rintro ⟨lastScoop, lastNonce⟩
    exact before ⟨lastScoop, last_cell nonceLt lastNonce⟩
  have scoops : 1 ≤ numScoops := by decide
  have lastNonce : (plotfile.file.numberOfWarps - 1) * numScoops + (numScoops - 1) =
      plotfile.file.numberOfWarps * numScoops - 1 := by
    simp only [numScoops]
    omega
  have stops : check generateScoop overflowChecks plotfile (numScoops - 1)
      (plotfile.file.numberOfWarps - 1) (numScoops - 1) =
        .error (.verificationFailed (numScoops - 1)
          (plotfile.file.numberOfWarps * numScoops - 1)) := by
    rw [check_eq checkable overflowChecks (Nat.sub_lt scoops Nat.one_pos)
      (Nat.sub_lt positive Nat.one_pos) (Nat.sub_lt scoops Nat.one_pos), lastNonce, if_neg wrong]
  rw [complete_eq checkable, split numScoops scoops]
  refine forM_stops ?_ ?_
  · intro scoop listed
    have before := List.mem_range.mp listed
    refine forM_eq_ok.mpr fun warp warpLt => forM_eq_ok.mpr fun nonceInWarp nonceLt => ?_
    rw [← split numScoops scoops] at nonceLt
    exact passes scoop warp nonceInWarp (by omega) (List.mem_range.mp warpLt)
      (List.mem_range.mp nonceLt) (by omega)
  rw [split plotfile.file.numberOfWarps positive]
  refine forM_stops ?_ ?_
  · intro warp listed
    have before := List.mem_range.mp listed
    refine forM_eq_ok.mpr fun nonceInWarp nonceLt => ?_
    rw [← split numScoops scoops] at nonceLt
    exact passes _ warp nonceInWarp (Nat.sub_lt scoops Nat.one_pos) (by omega)
      (List.mem_range.mp nonceLt) (by omega)
  refine forM_stops ?_ stops
  intro nonceInWarp listed
  have before := List.mem_range.mp listed
  exact passes _ _ nonceInWarp (Nat.sub_lt scoops Nat.one_pos) (Nat.sub_lt positive Nat.one_pos)
    (by omega) (by omega)

/-- The turns of `partial` and `random` pass where each draws a right scoop. -/
theorem drawn_ok_iff (overflowChecks : Bool) (positive : 1 ≤ plotfile.file.numberOfWarps)
    {scoop nonceInWarp : Nat} {randomRange : Nat → Nat → Nat} {turn : Nat}
    (scoopLt : scoop < numScoops) (nonceLt : nonceInWarp < numScoops)
    (drawnLt : ∀ turn range, 0 < range → randomRange turn range < range) :
    (drawWarp plotfile randomRange turn >>= fun warp =>
        check generateScoop overflowChecks plotfile scoop warp nonceInWarp) = .ok () ↔
      Same (plotfile.scoopOf scoop
          (randomRange turn plotfile.file.numberOfWarps * numScoops + nonceInWarp))
        (reference scoop
          (randomRange turn plotfile.file.numberOfWarps * numScoops + nonceInWarp)) := by
  have drawn : drawWarp plotfile randomRange turn =
      .ok (randomRange turn plotfile.file.numberOfWarps) := if_neg (Nat.ne_of_gt positive)
  rw [drawn, ok_bind]
  exact check_ok_iff checkable overflowChecks scoopLt (drawnLt turn _ positive) nonceLt

omit checkable in
theorem SmallRng.scoops_lt (rng : SmallRng) {i : Nat} (lt : i < numScoops) :
    rng.scoops i < numScoops := by
  have listed := List.mem_map_of_mem (f := rng.scoops) (List.mem_range.mpr lt)
  exact List.mem_range.mp (rng.scoops_shuffle.mem_iff.mp listed)

omit checkable in
theorem SmallRng.noncesInWarp_lt (rng : SmallRng) {i : Nat} (lt : i < numScoops) :
    rng.noncesInWarp i < numScoops := by
  have listed := List.mem_map_of_mem (f := rng.noncesInWarp) (List.mem_range.mpr lt)
  exact List.mem_range.mp (rng.noncesInWarp_shuffle.mem_iff.mp listed)

theorem partialCheck_ok_iff (overflowChecks : Bool)
    (positive : 1 ≤ plotfile.file.numberOfWarps) (rng : SmallRng) :
    partialCheck generateScoop overflowChecks plotfile rng = .ok () ↔
      ∀ i < numScoops,
        let nonce := rng.randomRange i plotfile.file.numberOfWarps * numScoops + rng.noncesInWarp i
        Same (plotfile.scoopOf (rng.scoops i) nonce) (reference (rng.scoops i) nonce) := by
  rw [partialCheck, forM_eq_ok]
  apply forall_congr'
  intro i
  rw [List.mem_range]
  apply imp_congr_right
  intro lt
  exact drawn_ok_iff checkable overflowChecks positive (rng.scoops_lt lt) (rng.noncesInWarp_lt lt)
    rng.randomRange_lt

theorem random_ok_iff (overflowChecks : Bool) (positive : 1 ≤ plotfile.file.numberOfWarps)
    (rng : ThreadRng) (turns : Nat) :
    random generateScoop overflowChecks plotfile rng turns = .ok () ↔
      ∀ turn < turns,
        let nonce := rng.randomRange turn plotfile.file.numberOfWarps * numScoops +
          rng.nonceInWarp turn
        Same (plotfile.scoopOf (rng.scoop turn) nonce) (reference (rng.scoop turn) nonce) := by
  rw [random, forM_eq_ok]
  apply forall_congr'
  intro turn
  rw [List.mem_range]
  apply imp_congr_right
  intro _
  exact drawn_ok_iff checkable overflowChecks positive (rng.scoop_lt turn) (rng.nonceInWarp_lt turn)
    rng.randomRange_lt

end Checks

section Finished

open Hashlib (NonceGenerator levelScoop generateScoop_level)
open PlotFile (AtMarker Extension markerOffset resumeMagic)
open PlotFile.Crash (byteOf hasMagic hasMagic_iff markerOffset_fits)
open PlotLife (PlotName Plotted EndsApart)
open Transition (Reachable)

/-- A finished plot as the verifier opens it. -/
def openRead (plot : PlotName Payload Seed) (files : Extension → Option Bytes) :
    Plotfile Payload Seed where
  file := ⟨plot.numberOfWarps, .read, false, true, .pocx, files⟩
  base58Decoded := plot.addressPayload
  seedDecoded := plot.seed
  compression := plot.compress

/-- The scoops of a plot are generated for the verifier as they were for the plotter. -/
def Generates (generateScoop : GenerateScoop Payload Seed) (generator : NonceGenerator Payload Seed)
    (plot : PlotName Payload Seed) : Prop :=
  ∀ scoop nonce, scoop < numScoops → nonce < plot.numberOfWarps * numScoops →
    generateScoop plot.addressPayload plot.seed scoop nonce plot.compress =
      .ok (Hashlib.generateScoop generator.generateNonces plot.addressPayload plot.seed scoop nonce
        plot.compress)

variable {generateScoop : GenerateScoop Payload Seed} {generator : NonceGenerator Payload Seed}
  {plot : PlotName Payload Seed} {files : Extension → Option Bytes} {content : Bytes}

def levelOf (generator : NonceGenerator Payload Seed) (plot : PlotName Payload Seed)
    (scoop nonce : Nat) : Scoop :=
  levelScoop generator.raw plot.addressPayload plot.seed scoop nonce plot.compress

theorem openRead_checkable (generates : Generates generateScoop generator plot)
    (bounded : plot.numberOfWarps < 2 ^ 32) (finished : files .pocx = some content)
    (len : plot.numberOfWarps * warpSize ≤ content.len) :
    Checkable generateScoop (openRead plot files) (levelOf generator plot) := by
  have read : (openRead plot files).file.content = content := by
    simp only [openRead, File.content, finished, Option.getD_some]
  refine ⟨rfl, ?_, ?_, ?_, ?_⟩
  · intro dummy
    cases dummy
  · rw [read]
    exact len
  · show plot.numberOfWarps * warpSize < 2 ^ 64
    simp only [warpSize, PlotFile.nonceSize, numScoops, scoopSize]
    omega
  · intro scoop nonce scoopLt nonceLt
    have generated := generates scoop nonce scoopLt nonceLt
    rw [generateScoop_level generator.raw _ _ _ generator.single scoopLt] at generated
    exact generated

/-- All scoops but the last of the last nonce are right. -/
theorem plotted_right (finished : files .pocx = some content)
    (plotted : Plotted generator plot content plot.numberOfWarps) {scoop nonce : Nat}
    (scoopLt : scoop < numScoops) (nonceLt : nonce < plot.numberOfWarps * numScoops)
    (before : ¬ (scoop + 1 = numScoops ∧ nonce + 1 = plot.numberOfWarps * numScoops)) :
    Same ((openRead plot files).scoopOf scoop nonce) (levelOf generator plot scoop nonce) := by
  have warpLt : nonce / numScoops < plot.numberOfWarps :=
    (Nat.div_lt_iff_lt_mul (by decide)).mpr nonceLt
  have inWarp : nonce % numScoops < numScoops := Nat.mod_lt _ (by decide)
  have parts : nonce / numScoops * numScoops + nonce % numScoops = nonce := Nat.div_add_mod' _ _
  obtain ⟨value, generated, bytes⟩ := plotted scoop _ _ scoopLt warpLt inWarp
  rw [generateScoop_level generator.raw _ _ _ generator.single scoopLt, parts] at generated
  obtain rfl := Except.ok.inj generated
  intro z
  have apart : ¬ AtMarker plot.numberOfWarps scoop (nonce / numScoops) (nonce % numScoops) z := by
    rintro ⟨lastScoop, lastWarp, lastNonce, -⟩
    apply before ⟨lastScoop, ?_⟩
    rw [← lastWarp, Nat.add_mul]
    omega
  have written := bytes z apart
  rw [byteOf, ReadDisk.byte_address, parts] at written
  have read : (openRead plot files).file.content = content := by
    simp only [openRead, File.content, finished, Option.getD_some]
  rw [Plotfile.scoopOf, read]
  exact written

/-- The last scoop of the last nonce ends with the marker. -/
theorem marked_wrong (positive : 1 ≤ plot.numberOfWarps) (finished : files .pocx = some content)
    (magic : hasMagic plot.numberOfWarps content = true) (apart : EndsApart generator plot) :
    ¬ Same ((openRead plot files).scoopOf (numScoops - 1) (plot.numberOfWarps * numScoops - 1))
      (levelOf generator plot (numScoops - 1) (plot.numberOfWarps * numScoops - 1)) := by
  intro same
  have nonce : (plot.numberOfWarps - 1) * numScoops + (numScoops - 1) =
      plot.numberOfWarps * numScoops - 1 := by
    simp only [numScoops]
    omega
  have lastLt : numScoops - 1 < numScoops := by decide
  obtain ⟨i, differs⟩ := apart _
    (generateScoop_level generator.raw _ _ _ generator.single lastLt _ _)
  have ends := markerOffset_fits plot.numberOfWarps positive
  have address : scoopAddress (plot.numberOfWarps * numScoops) (numScoops - 1)
      (plot.numberOfWarps * numScoops - 1) + (60 + i.val) =
        markerOffset plot.numberOfWarps + 4 + i := by
    simp only [scoopAddress, warpSize, PlotFile.nonceSize, numScoops, scoopSize] at ends ⊢
    omega
  have read : (openRead plot files).file.content = content := by
    simp only [openRead, File.content, finished, Option.getD_some]
  have byte := same (Fin.natAdd 60 i)
  rw [Plotfile.scoopOf, read] at byte
  have held := (hasMagic_iff plot.numberOfWarps content).mp magic i i.isLt
  rw [← address] at held
  apply differs
  rw [nonce]
  exact byte.symm.trans held

/-- The last scoop of the last nonce. -/
def IsLast (numberOfWarps scoop warp nonceInWarp : Nat) : Prop :=
  scoop + 1 = numScoops ∧ warp + 1 = numberOfWarps ∧ nonceInWarp + 1 = numScoops

/-- The modes that draw scoops of a finished plot are right unless they draw the last. -/
theorem drawn_right_iff (positive : 1 ≤ plot.numberOfWarps) (finished : files .pocx = some content)
    (plotted : Plotted generator plot content plot.numberOfWarps)
    (magic : hasMagic plot.numberOfWarps content = true) (apart : EndsApart generator plot)
    {scoop warp nonceInWarp : Nat} (scoopLt : scoop < numScoops)
    (warpLt : warp < plot.numberOfWarps) (nonceLt : nonceInWarp < numScoops) :
    Same ((openRead plot files).scoopOf scoop (warp * numScoops + nonceInWarp))
        (levelOf generator plot scoop (warp * numScoops + nonceInWarp)) ↔
      ¬ IsLast plot.numberOfWarps scoop warp nonceInWarp := by
  constructor
  · rintro same ⟨lastScoop, lastWarp, lastNonce⟩
    apply marked_wrong positive finished magic apart
    have scoopEq : scoop = numScoops - 1 := by omega
    have nonce : warp * numScoops + nonceInWarp = plot.numberOfWarps * numScoops - 1 := by
      rw [← lastWarp, Nat.add_mul]
      omega
    rw [scoopEq, nonce] at same
    exact same
  · intro before
    apply plotted_right finished plotted scoopLt (Strided.index_lt _ _ _ _ warpLt nonceLt)
    rintro ⟨lastScoop, last⟩
    exact before ⟨lastScoop, last_cell nonceLt last⟩

/-- The verifier and the plots that the plotter finishes: their marker stands where the last scoop
of the last nonce should be, so `complete` always stops there, and the other modes pass unless they
draw it. -/
theorem finished_plot_checks [DecidableEq Seed] (generator : NonceGenerator Payload Seed)
    (plot : PlotName Payload Seed) (platform : PlotFile.Crash.Platform)
    (compressed : 1 ≤ plot.compress) (positive : 1 ≤ plot.numberOfWarps)
    (bounded : plot.numberOfWarps < 2 ^ 32) (apart : EndsApart generator plot)
    (state : PlotLife.State Payload Seed)
    (reached : Reachable (PlotLife.system plot platform generator.generateNonces)
      (PlotLife.Admissible plot platform) state)
    (content : Bytes) (finished : state.disk.file.files .pocx = some content)
    (generateScoop : GenerateScoop Payload Seed) (generates : Generates generateScoop generator plot)
    (overflowChecks : Bool) :
    let plotfile := openRead plot state.disk.file.files
    complete generateScoop overflowChecks plotfile =
        .error (.verificationFailed (numScoops - 1) (plot.numberOfWarps * numScoops - 1)) ∧
      (∀ rng : SmallRng, partialCheck generateScoop overflowChecks plotfile rng = .ok () ↔
        ∀ i < numScoops, ¬ IsLast plot.numberOfWarps (rng.scoops i)
          (rng.randomRange i plot.numberOfWarps) (rng.noncesInWarp i)) ∧
      ∀ (rng : ThreadRng) turns, random generateScoop overflowChecks plotfile rng turns = .ok () ↔
        ∀ turn < turns, ¬ IsLast plot.numberOfWarps (rng.scoop turn)
          (rng.randomRange turn plot.numberOfWarps) (rng.nonceInWarp turn) := by
  intro plotfile
  have truthful := (PlotLife.reachable_invariant compressed positive bounded apart reached).truthful
    positive
  obtain ⟨len, plotted⟩ := truthful.finished content finished
  obtain ⟨magic, -⟩ := PlotLife.finished_marked compressed positive bounded apart reached content
    finished
  have checkable := openRead_checkable generates bounded finished len
  refine ⟨?_, ?_, ?_⟩
  · exact complete_stops checkable overflowChecks positive
      (fun _ _ => plotted_right finished plotted) (marked_wrong positive finished magic apart)
  · intro rng
    rw [partialCheck_ok_iff checkable overflowChecks positive rng]
    apply forall_congr'
    intro i
    apply imp_congr_right
    intro lt
    exact drawn_right_iff positive finished plotted magic apart (rng.scoops_lt lt)
      (rng.randomRange_lt i _ positive) (rng.noncesInWarp_lt lt)
  · intro rng turns
    rw [random_ok_iff checkable overflowChecks positive rng turns]
    apply forall_congr'
    intro turn
    apply imp_congr_right
    intro _
    exact drawn_right_iff positive finished plotted magic apart (rng.scoop_lt turn)
      (rng.randomRange_lt turn _ positive) (rng.nonceInWarp_lt turn)

/-- The plot of one warp stops the verifier at its last scoop. -/
theorem finished_plot_checks_one_warp :
    ∃ (state : PlotLife.State Unit Unit) (content : Bytes),
      state.disk.file.files .pocx = some content ∧
      complete (fun addressPayload seed scoop nonce compression =>
          .ok (Hashlib.generateScoop CpuScheduler.oneGenerator.generateNonces addressPayload seed
            scoop nonce compression))
        true (openRead PlotLife.onePlot state.disk.file.files) =
          .error (.verificationFailed 4095 4095) := by
  obtain ⟨state, content, reached, finished⟩ := PlotLife.onePlot_finished
  exact ⟨state, content, finished, (finished_plot_checks CpuScheduler.oneGenerator PlotLife.onePlot
    .unix (Nat.le_refl 1) (Nat.le_refl 1) (by decide) PlotLife.onePlot_endsApart state reached
    content finished _ (fun _ _ _ _ => rfl) true).1⟩

end Finished

section InRange

open Hashlib (generateNonces generateNonces_single generateAndExtractScoop32 vectorGenerator
  levelScoop generateScoop_level calculateQualityRaw)
open Hasher (calcQualities)
open ReadDisk (Plot Round Supply CompressionConfig Validates)

/-- `generate_scoop` of the verifier's platform. -/
def generateScoopOn (overflowChecks : Bool) (platform : Platform) :
    GenerateScoop (U8s 20) (U8s 32) :=
  Hashlib.ValidationRange.generateScoop overflowChecks (generateNonces platform)

/-- The nonces that make up the scoops of a plot fit in 64 bits. -/
def LevelFits (numberOfWarps compression : Nat) : Prop :=
  compression ≤ 63 ∧ 2 ^ compression * numberOfWarps * numScoops ≤ 2 ^ 64

theorem generateScoopOn_ok (overflowChecks : Bool) (platform : Platform) (addressPayload : U8s 20)
    (seed : U8s 32) {numberOfWarps compression scoop nonce : Nat}
    (fits : LevelFits numberOfWarps compression) (scoopLt : scoop < numScoops)
    (nonceLt : nonce < numberOfWarps * numScoops) :
    generateScoopOn overflowChecks platform addressPayload seed scoop nonce compression =
      .ok (Hashlib.generateScoop (generateNonces platform) addressPayload seed scoop nonce
        compression) := by
  have warpLt : nonce / numScoops + 1 ≤ numberOfWarps :=
    (Nat.div_lt_iff_lt_mul (by decide)).mpr nonceLt
  have room : 2 ^ compression * (nonce / numScoops + 1) * numScoops ≤ 2 ^ 64 :=
    Nat.le_trans (Nat.mul_le_mul_right _ (Nat.mul_le_mul_left _ warpLt)) fits.2
  exact Hashlib.ValidationRange.generateScoop_ok
    ⟨addressPayload, seed, nonce, compression, 0, fun _ => 0, 0, none⟩ overflowChecks
    ⟨fits.1, room⟩ scoopLt

/-- On every platform the verifier generates the scoops of a plot as the plotter did. -/
theorem generateScoopOn_generates (overflowChecks : Bool) (platform : Platform)
    (target : Hashlib.Target) (other : target ≠ .aarch64)
    (plot : PlotLife.PlotName (U8s 20) (U8s 32)) (fits : LevelFits plot.numberOfWarps plot.compress) :
    Generates (generateScoopOn overflowChecks platform) (vectorGenerator target other) plot := by
  intro scoop nonce scoopLt nonceLt
  rw [generateScoopOn_ok overflowChecks platform _ _ fits scoopLt nonceLt,
    generateScoop_level generateAndExtractScoop32 _ _ _ (generateNonces_single platform) scoopLt,
    generateScoop_level (vectorGenerator target other).raw _ _ _
      (vectorGenerator target other).single scoopLt]
  rfl

/-- A plot file as `open` leaves it, of the size that its name tells. -/
structure Opened (plotfile : Plotfile (U8s 20) (U8s 32)) : Prop where
  handle : plotfile.file.fileHandle = true
  access : plotfile.file.access = .read
  size : plotfile.file.content.len = plotfile.file.numberOfWarps * warpSize
  bounded : plotfile.file.numberOfWarps * warpSize < 2 ^ 64
  fits : LevelFits plotfile.file.numberOfWarps plotfile.compression

/-- The scoops that a plot file should hold. -/
def scoopsOf (plotfile : Plotfile (U8s 20) (U8s 32)) (scoop nonce : Nat) : Scoop :=
  levelScoop generateAndExtractScoop32 plotfile.base58Decoded plotfile.seedDecoded scoop nonce
    plotfile.compression

theorem Opened.checkable {plotfile : Plotfile (U8s 20) (U8s 32)} (opened : Opened plotfile)
    (overflowChecks : Bool) (platform : Platform) :
    Checkable (generateScoopOn overflowChecks platform) plotfile (scoopsOf plotfile) := by
  refine ⟨opened.handle, ?_, Nat.le_of_eq opened.size.symm, opened.bounded, ?_⟩
  · rw [opened.access]
    nofun
  · intro scoop nonce scoopLt nonceLt
    rw [generateScoopOn_ok overflowChecks platform _ _ opened.fits scoopLt nonceLt,
      generateScoop_level generateAndExtractScoop32 _ _ _ (generateNonces_single platform) scoopLt]
    rfl

/-- The plot file as the miner opens it. -/
def Plotfile.mined (plotfile : Plotfile (U8s 20) (U8s 32)) (seedText : String) : Plot where
  base58Decoded := plotfile.base58Decoded
  seed := seedText
  compression := plotfile.compression
  numberOfWarps := plotfile.file.numberOfWarps
  content := plotfile.file.content
  readProgress := 0

/-- The best quality of the bytes of one scoop. -/
theorem findBestQuality_one (platform : Platform) (hash : Bytes) (hashRef : Scoop)
    (size : hash.len = scoopSize) (same : Same hash hashRef) (generationSignature : U8s 32) :
    (findBestQuality platform hash 1 generationSignature).1 =
      Hashlib.shabal256Lite hashRef generationSignature := by
  have whole : 1 * scoopSize ≤ hash.len := by
    rw [size, Nat.one_mul]
  have least := Hashlib.findBestQuality_least platform hash 1 generationSignature Nat.one_pos whole
  have only : (findBestQuality platform hash 1 generationSignature).2 = 0 :=
    Nat.lt_one_iff.mp least.inside
  have scoop : Hashlib.scoopAt hash 0 = hashRef := by
    apply Scoop.ext
    funext z
    have byte := same z
    rw [← Nat.zero_add z.val] at byte
    exact byte
  rw [← least.attained, only, Hashlib.scoopQuality, Nat.zero_mul, scoop]

section Passed

variable {plotfile : Plotfile (U8s 20) (U8s 32)} (opened : Opened plotfile) {overflowChecks : Bool}
  {checker : Platform}
  (passed : complete (generateScoopOn overflowChecks checker) overflowChecks plotfile = .ok ())
include opened passed

theorem passed_right {scoop nonce : Nat} (scoopLt : scoop < numScoops)
    (nonceLt : nonce < plotfile.file.numberOfWarps * numScoops) :
    Same (plotfile.scoopOf scoop nonce) (scoopsOf plotfile scoop nonce) :=
  (complete_ok_iff (opened.checkable overflowChecks checker) overflowChecks).mp passed scoop nonce
    scoopLt nonceLt

/-- A plot file that passes is a plot of its level, to its last scoop. -/
theorem passed_plotted (seedText : String) :
    ReadDisk.Plotted checker (plotfile.mined seedText) plotfile.seedDecoded := by
  refine ⟨opened.size, ?_⟩
  intro scoop nonce scoopLt nonceLt
  rw [generateScoop_level generateAndExtractScoop32 _ _ _ (generateNonces_single checker) scoopLt]
  apply congrArg Except.ok
  apply Scoop.ext
  funext z
  exact (passed_right opened passed scoopLt nonceLt z).symm

/-- `single` then prints the quality that the chain computes. -/
theorem passed_single (reference : Platform) {scoop nonce : Nat} (scoopLt : scoop < numScoops)
    (nonceLt : nonce < plotfile.file.numberOfWarps * numScoops) (generationSignature : U8s 32)
    {baseTarget : UInt64} (nonzero : baseTarget ≠ 0) :
    ∃ report, single (generateScoopOn overflowChecks checker) plotfile checker scoop nonce
        generationSignature baseTarget = .ok report ∧
      calculateQualityRaw reference plotfile.base58Decoded plotfile.seedDecoded nonce
        plotfile.compression scoop generationSignature = .ok report.qualityRaw := by
  have same := passed_right opened passed scoopLt nonceLt
  have found := hashes_ok (opened.checkable overflowChecks checker) scoopLt nonceLt
  rw [single, if_neg (Nat.not_le.mpr scoopLt), found, ok_bind]
  simp only [if_neg nonzero, if_pos same]
  refine ⟨_, rfl, ?_⟩
  rw [Hasher.calculateQualityRaw_level reference _ _ _ _ _ _ scoopLt]
  exact congrArg Except.ok (findBestQuality_one checker _ _ rfl same generationSignature).symm

end Passed

/-- A plot file that passes the complete check mines: the miner's submissions of it validate for
every scoop, a finished scan reports each of its warps once, and `single` prints the qualities that
the chain computes. A supplied scan that is not interrupted finishes. -/
theorem complete_plot_mines (checker miner reference : Platform) (overflowChecks : Bool)
    (plotfile : Plotfile (U8s 20) (U8s 32)) (opened : Opened plotfile)
    (passed : complete (generateScoopOn overflowChecks checker) overflowChecks plotfile = .ok ())
    (level : 1 ≤ plotfile.compression) (seedText : String) (simd : Bool) (supply : Supply)
    (config : Option CompressionConfig) (cache : Nat) (plots : List Plot) (index scoop : Nat)
    (round : Round) (found : plots[index]? = some (plotfile.mined seedText))
    (scoopLt : scoop < numScoops) (positive : 0 < cache)
    (buffers : ∀ i buffer, supply.rxEmptyBuffer i = some buffer →
      buffer.len = cache * (numScoops * scoopSize))
    (power : ∀ settings, config = some settings → cache = 2 ^ settings.maxCompressionSteps)
    (kept : ∀ reason, ReadDisk.plotAction (plotfile.mined seedText) config ≠ .skip reason)
    (levelFits : plotfile.compression +
      (ReadDisk.plotAction (plotfile.mined seedText) config).steps ≤ 255) :
    let plot := plotfile.mined seedText
    let messages := ReadDisk.readDisk supply (ReadDisk.xorChunk simd miner.target) config scoop plots
    let steps := (ReadDisk.plotAction plot config).steps
    (∀ reply, .data index reply ∈ messages →
        Validates reference plot plotfile.seedDecoded scoop steps round.generationSignatureBytes
          (calcQualities miner (round.hashingTask reply)).2.nonceSubmission) ∧
      (.scanFinished ∈ messages →
        ReadDisk.reported (messages.filterMap (ReadDisk.dataOf index)) =
          List.range (plot.numberOfWarps / 2 ^ steps)) ∧
      (ReadDisk.Calm supply → .scanFinished ∈ messages) ∧
      ∀ nonce < plot.numberOfWarps * numScoops, ∀ generationSignature, ∀ baseTarget ≠ 0,
        ∃ report, single (generateScoopOn overflowChecks checker) plotfile checker scoop nonce
            generationSignature baseTarget = .ok report ∧
          calculateQualityRaw reference plot.base58Decoded plotfile.seedDecoded nonce
            plot.compression scoop generationSignature = .ok report.qualityRaw := by
  intro plot messages steps
  have mineable : ReadDisk.Mineable plot (ReadDisk.plotAction plot config) cache :=
    ReadDisk.plotAction_mineable level positive power levelFits
  obtain ⟨front, back, split, apartFront, apartBack⟩ := ReadDisk.zipIdx_split plots index _ found
  have scanned := ReadDisk.readPlots_scanned (passed_plotted opened passed seedText) scoopLt mineable
    kept (ReadDisk.xorChunk_dvd simd miner.target) buffers rfl index front back apartFront apartBack
    ⟨0, 0, []⟩ rfl
  rw [← split] at scanned
  obtain ⟨valid, covered⟩ := scanned
  obtain ⟨submitted, finishes⟩ := ReadDisk.readDisk_observed valid covered
  refine ⟨?_, finishes, fun calm => (ReadDisk.readDisk_calm calm _ config scoop plots).1, ?_⟩
  · intro reply listed
    exact (submitted reply listed).validates scoopLt miner reference round
  · intro nonce nonceLt generationSignature baseTarget nonzero
    exact passed_single opened passed reference scoopLt nonceLt generationSignature nonzero

/-- Three warps of level 1. -/
def levelPlot : Plot := ReadDisk.levelPlot (fun _ => 0) (fun _ => 0) "00" 1 3

/-- A plot file that holds all their scoops. -/
def levelFile : Plotfile (U8s 20) (U8s 32) where
  file := ⟨levelPlot.numberOfWarps, .read, false, true, .pocx, fun _ => some levelPlot.content⟩
  base58Decoded := levelPlot.base58Decoded
  seedDecoded := fun _ => 0
  compression := levelPlot.compression

theorem levelFile_opened : Opened levelFile :=
  ⟨rfl, rfl, rfl, by decide, by decide, by decide⟩

theorem levelFile_passed (overflowChecks : Bool) (checker : Platform) :
    complete (generateScoopOn overflowChecks checker) overflowChecks levelFile = .ok () := by
  rw [complete_ok_iff (levelFile_opened.checkable overflowChecks checker) overflowChecks]
  intro scoop nonce scoopLt nonceLt z
  have plotted : ReadDisk.Plotted checker levelPlot fun _ => 0 :=
    ReadDisk.levelPlot_plotted checker _ _ _ _ _
  have level := plotted.level scoop nonce scoopLt nonceLt
  have right : scoopsOf levelFile scoop nonce = levelScoop generateAndExtractScoop32
      levelPlot.base58Decoded (fun _ => 0) scoop nonce levelPlot.compression := rfl
  have content : levelFile.file.content = levelPlot.content := rfl
  have warps : levelFile.file.numberOfWarps = levelPlot.numberOfWarps := rfl
  rw [right, ← level, Plotfile.scoopOf, content, warps, Hashlib.scoopAt]

/-- Its last scoop, mined at level 2 with buffers of two warps: the scan finishes, has told of warp 0,
and of no other, its submission validates, and `single` prints a quality of the last nonce. -/
theorem complete_plot_mines_three_warps :
    let machine := Hashlib.scalarPlatform .other
    let plot := levelFile.mined "00"
    let messages := ReadDisk.readDisk ReadDisk.twoWarpSupply (ReadDisk.xorChunk false machine.target)
      (some ReadDisk.levelTwoConfig) 4095 [plot]
    .scanFinished ∈ messages ∧ ReadDisk.reported (messages.filterMap (ReadDisk.dataOf 0)) = [0] ∧
      (∃ reply, .data 0 reply ∈ messages ∧
        Validates machine plot (fun _ => 0) 4095 1 ReadDisk.firstRound.generationSignatureBytes
          (calcQualities machine (ReadDisk.firstRound.hashingTask reply)).2.nonceSubmission) ∧
      ∃ report, single (generateScoopOn true machine) levelFile machine 4095 12287 (fun _ => 0) 24 =
          .ok report ∧
        calculateQualityRaw machine plot.base58Decoded (fun _ => 0) 12287 1 4095 (fun _ => 0) =
          .ok report.qualityRaw := by
  intro machine plot messages
  obtain ⟨validates, covered, finishes, prints⟩ := complete_plot_mines machine machine machine true
    levelFile levelFile_opened (levelFile_passed true machine) (by decide) "00" false
    ReadDisk.twoWarpSupply (some ReadDisk.levelTwoConfig) 2 [plot] 0 4095 ReadDisk.firstRound rfl
    (by decide) (by decide) ReadDisk.twoWarpSupply_sized ReadDisk.levelTwoConfig_power (by nofun)
    (by decide)
  have finished := finishes ReadDisk.twoWarpSupply_calm
  obtain ⟨warps, reply, data⟩ := ReadDisk.levelTwo_told rfl rfl (covered finished)
  have last : 12287 < plot.numberOfWarps * numScoops := by decide
  exact ⟨finished, warps, ⟨reply, data, validates reply data⟩, prints 12287 last _ 24 (by decide)⟩

end InRange

end Pocx.Plotcheck
