import Pocx.Hashlib.Shabal256
import Pocx.Mockchain.ForgingRuns

set_option autoImplicit false

namespace Pocx.Mockchain

open Address (decodeAddress)
open Transition (System Reachable)

/-- What the database needs besides. -/
structure DbConfig extends PoCXConfig where
  lookbackBlocks : Int
  genesisSignature : List Char

/-- A row of the table `block`, with its creation time in nanoseconds. -/
structure Row where
  block : Block
  creationTime : Int

/-- `i32 as u64` -/
def asU64 (value : Int) : Nat := (value % 2 ^ 64).toNat

/-- `order(block::height.desc())` -/
def byHeight (rows : List Row) : List Row :=
  rows.mergeSort fun first second => decide (second.block.height ≤ first.block.height)

/-- The query of `get_latest_block` and `get_latest_block_init`. -/
def getLatestBlock (rows : List Row) : Option Row := (byHeight rows).head?

/-- `LIMIT`, which is none where it is negative. -/
def limit {α : Type} (count : Int) (rows : List α) : List α :=
  if count < 0 then rows else rows.take count.toNat

/-- `get_elapsed_time`: the seconds since the earliest of the last blocks, and their number. -/
def getElapsedTime (lookbackBlocks now : Int) (rows : List Row) : Option (Nat × Nat) :=
  let times := (limit lookbackBlocks (byHeight rows)).map Row.creationTime
  times.getLast?.bind fun last =>
    if now < last then none else some ((now - last).toNat / 10 ^ 9, times.length)

/-- An `INSERT`, which fails where the table has a row of this height. -/
def insertRow (row : Row) (rows : List Row) : Option (List Row) :=
  if rows.any (·.block.height = row.block.height) then none else some (row :: rows)

section functions

variable (config : DbConfig)

/-- `MiningInfo::new` with a text for the signature. -/
def MiningInfo.new (height baseTarget : Nat) (generationSignature : List Char)
    (random : Vector UInt8 32) (blockHash : List Char) : MiningInfo where
  generationSignature :=
    let bytes := (config.hexDecode generationSignature).getD []
    if bytes.length = 32 then bytes else random.toList
  baseTarget := baseTarget
  height := height
  blockHash := blockHash
  targetQuality := maxQuality

def MiningInfo.fromBlock (block : Block) (blockHash : List Char) : Except String MiningInfo :=
  match config.hexDecode block.generationSignature with
  | none => .error "Failed to decode generation signature"
  | some bytes =>
    if bytes.length = 32 then
      .ok {
        generationSignature := bytes
        baseTarget := block.baseTarget
        height := asU64 block.height
        blockHash := blockHash
        targetQuality := maxQuality }
    else .error "Generation signature must be exactly 32 bytes"

def genesisRow (miningInfo : MiningInfo) (forgeTime : Int) : Row where
  block :=
    { height := asI32 miningInfo.height
      baseTarget := miningInfo.baseTarget
      generationSignature := config.hexEncode miningInfo.generationSignature
      generator := []
      seed := []
      nonce := 0
      pocTime := asI32 config.blockTimeSeconds }
  creationTime := forgeTime

/-- The table, and the cached mining info of the process, if there is one. -/
structure DB where
  rows : List Row
  cache : Option MiningInfo

/-- The process is started and killed, and forges blocks. A query or an `INSERT` may fail. -/
inductive DbLabel
  | new (now : Int) (random : Vector UInt8 32) (blockHash : List Char) (queryFails : Bool)
  | kill
  | forgeBlock (submission : Submission) (forgeTime now : Int) (blockHash : List Char)
      (queryFails insertFails : Bool)

/-- `DB::new`; where it panics there is no process. -/
def DB.new (db : DB) (now : Int) (random : Vector UInt8 32) (blockHash : List Char)
    (queryFails : Bool) : DB :=
  match if queryFails then none else getLatestBlock db.rows with
  | some row =>
    match MiningInfo.fromBlock config row.block blockHash with
    | .ok miningInfo => { db with cache := some miningInfo }
    | .error _ => db
  | none =>
    let miningInfo := MiningInfo.new config 0 (genesisBaseTarget config.blockTimeSeconds)
      config.genesisSignature random blockHash
    match insertRow (genesisRow config miningInfo now) db.rows with
    | some rows => ⟨rows, some miningInfo⟩
    | none => db

/-- `forge_block` on the table. A failed `INSERT` is only reported. -/
def DB.forgeBlock (db : DB) (miningInfo : MiningInfo) (submission : Submission)
    (forgeTime now : Int) (blockHash : List Char) (queryFails insertFails : Bool) : DB :=
  let elapsed := if queryFails then none else getElapsedTime config.lookbackBlocks now db.rows
  match Mockchain.forgeBlock config.toPoCXConfig miningInfo submission elapsed blockHash with
  | none => db
  | some (newMiningInfo, block) =>
    { rows :=
        if insertFails then db.rows else (insertRow ⟨block, forgeTime⟩ db.rows).getD db.rows
      cache := some newMiningInfo }

def DB.step (db : DB) : DbLabel → Option DB
  | .new now random blockHash queryFails =>
    match db.cache with
    | none => some (db.new config now random blockHash queryFails)
    | some _ => none
  | .kill => some { db with cache := none }
  | .forgeBlock submission forgeTime now blockHash queryFails insertFails =>
    db.cache.map fun miningInfo =>
      db.forgeBlock config miningInfo submission forgeTime now blockHash queryFails insertFails

/-- The database from a file that is new. -/
def dbSystem : System DB DbLabel where
  initial := fun db => db = ⟨[], none⟩
  step := DB.step config

/-- No `INSERT` fails but for the key of the table, and the heights fit its column. -/
def Stores (db : DB) : DbLabel → Prop
  | .forgeBlock _ _ _ _ _ insertFails =>
    insertFails = false ∧ ∀ miningInfo, db.cache = some miningInfo → miningInfo.height + 1 < 2 ^ 31
  | _ => True

/-- A row is made from the table it is added to: it is one higher than its parent, its signature
comes from its generator and from the signature of its parent, and its base target from the times
of the blocks before. -/
structure Follows (row parent : Row) (older : List Row) : Prop where
  height : row.block.height = parent.block.height + 1
  generationSignature : ∃ bytes payload,
    parent.block.generationSignature = config.hexEncode bytes ∧
      decodeAddress config.bs58 config.segwit row.block.generator =
        .ok (payload, config.networkId) ∧
      row.block.generationSignature = config.hexEncode
        (config.calculateNextGenerationSignature bytes (payload ++ List.replicate 44 0))
  baseTarget : ∃ now seconds blocks,
    getElapsedTime config.lookbackBlocks now (parent :: older) = some (seconds, blocks) ∧
      row.block.baseTarget =
        nextBaseTarget config.toPoCXConfig parent.block.baseTarget seconds blocks

/-- A chain, the newest row first. -/
inductive Chain : List Row → Prop
  | genesis {row : Row} (height : row.block.height = 0)
      (baseTarget : row.block.baseTarget = genesisBaseTarget config.blockTimeSeconds) : Chain [row]
  | next {row parent : Row} {older : List Row} (chain : Chain (parent :: older))
      (follows : Follows config row parent older) : Chain (row :: parent :: older)

/-- What the mining info has to do with the newest row. -/
structure Caches (miningInfo : MiningInfo) (rows : List Row) : Prop where
  length : miningInfo.generationSignature.length = 32
  newest : ∃ row older, rows = row :: older ∧ row.block.height = miningInfo.height ∧
    row.block.baseTarget = miningInfo.baseTarget ∧
    row.block.generationSignature = config.hexEncode miningInfo.generationSignature

/-- What is documented of `hex` and of the type of a signature. -/
structure HexLaws : Prop where
  decode_encode : ∀ bytes, config.hexDecode (config.hexEncode bytes) = some bytes
  length_next : ∀ generationSignature publicKey,
    (config.calculateNextGenerationSignature generationSignature publicKey).length = 32

end functions

section chain

variable {config : DbConfig} {rows : List Row}

theorem Chain.descends (chain : Chain config rows) :
    rows.Pairwise fun first second => second.block.height < first.block.height := by
  induction chain with
  | genesis _ _ => exact List.pairwise_singleton _ _
  | next chain follows ih =>
    refine List.pairwise_cons.mpr ⟨?_, ih⟩
    intro other listed
    have above := follows.height
    rcases List.mem_cons.mp listed with rfl | older
    · omega
    · have below := List.rel_of_pairwise_cons ih older
      omega

theorem Chain.byHeight (chain : Chain config rows) : byHeight rows = rows := by
  apply List.mergeSort_of_pairwise
  refine chain.descends.imp ?_
  intro first second below
  exact decide_eq_true (Int.le_of_lt below)

/-- The newest row counts those behind it. -/
theorem Chain.newest {row : Row} {older : List Row} (chain : Chain config (row :: older)) :
    row.block.height = older.length := by
  induction older generalizing row with
  | nil =>
    cases chain with
    | genesis height _ => exact height
  | cons parent rest ih =>
    cases chain with
    | next chain follows =>
      have behind := ih chain
      have above := follows.height
      rw [List.length_cons]
      omega

/-- The heights count the rows. -/
theorem Chain.heights (chain : Chain config rows) :
    rows.map (·.block.height) = (List.range rows.length).reverse.map Int.ofNat := by
  induction chain with
  | genesis height _ => simp [height]
  | next chain follows ih =>
    have newest := (Chain.next chain follows).newest
    rw [List.map_cons, ih, newest]
    conv_rhs => rw [List.length_cons, List.range_succ, List.reverse_append, List.map_append]
    rfl

/-- The base targets of a chain. -/
theorem Chain.baseTarget_bounds (chain : Chain config rows)
    (blockTime : 0 < config.blockTimeSeconds ∧ config.blockTimeSeconds ≤ 2 ^ 42) (row : Row)
    (listed : row ∈ rows) :
    1 ≤ row.block.baseTarget ∧
      row.block.baseTarget ≤ genesisBaseTarget config.blockTimeSeconds := by
  have positive : 1 ≤ genesisBaseTarget config.blockTimeSeconds :=
    Nat.div_pos blockTime.2 blockTime.1
  induction chain with
  | genesis _ baseTarget =>
    rw [List.mem_singleton.mp listed, baseTarget]
    exact ⟨positive, Nat.le_refl _⟩
  | next chain follows ih =>
    rcases List.mem_cons.mp listed with rfl | older
    · obtain ⟨now, seconds, blocks, -, baseTarget⟩ := follows.baseTarget
      rw [baseTarget, nextBaseTarget]
      refine ⟨Nat.le_max_right _ _, ?_⟩
      exact Nat.max_le.mpr ⟨Nat.min_le_right _ _, positive⟩
    · exact ih older

/-- A row above the newest one. -/
theorem Chain.insertRow (chain : Chain config rows) {row parent : Row} {older : List Row}
    (newest : rows = parent :: older) (above : row.block.height = parent.block.height + 1) :
    insertRow row rows = some (row :: rows) := by
  rw [Mockchain.insertRow, if_neg]
  intro taken
  obtain ⟨other, listed, same⟩ := List.any_eq_true.mp taken
  have height := of_decide_eq_true same
  have descends := chain.descends
  subst newest
  rcases List.mem_cons.mp listed with rfl | behind
  · omega
  · have below := List.rel_of_pairwise_cons descends behind
    omega

end chain

section forging

variable {config : DbConfig}

theorem asI32_of_lt {value : Nat} (small : value < 2 ^ 31) : asI32 value = value := by
  rw [asI32, BitVec.toInt_eq_toNat_cond, BitVec.toNat_ofNat,
    Nat.mod_eq_of_lt (Nat.lt_trans small (by decide)), if_pos (by omega)]

theorem asU64_of_lt {value : Nat} (small : value < 2 ^ 31) : asU64 value = value := by
  rw [asU64, Int.emod_eq_of_lt (Int.natCast_nonneg value) (by omega), Int.toNat_natCast]

/-- All that `forge_block` makes where it gets through. -/
theorem forgeBlock_some {config : PoCXConfig} {miningInfo newMiningInfo : MiningInfo}
    {submission : Submission} {elapsed : Option (Nat × Nat)} {blockHash : List Char} {block : Block}
    (forged : forgeBlock config miningInfo submission elapsed blockHash =
      some (newMiningInfo, block)) :
    ∃ payload seconds blocks, elapsed = some (seconds, blocks) ∧
      decodeAddress config.bs58 config.segwit submission.generator =
        .ok (payload, config.networkId) ∧
      newMiningInfo.height = miningInfo.height + 1 ∧
      newMiningInfo.baseTarget = nextBaseTarget config miningInfo.baseTarget seconds blocks ∧
      newMiningInfo.generationSignature = config.calculateNextGenerationSignature
        miningInfo.generationSignature (payload ++ List.replicate 44 0) ∧
      block.height = asI32 (miningInfo.height + 1) ∧
      block.baseTarget = newMiningInfo.baseTarget ∧
      block.generationSignature = config.hexEncode newMiningInfo.generationSignature ∧
      block.generator = submission.generator := by
  unfold forgeBlock at forged
  by_cases same : miningInfo.height = submission.height
  · rw [if_neg (not_not_intro same)] at forged
    cases decoded : decodeAddress config.bs58 config.segwit submission.generator with
    | error cause =>
      rw [decoded] at forged
      cases forged
    | ok address =>
      obtain ⟨payload, networkId⟩ := address
      rw [decoded] at forged
      dsimp only at forged
      by_cases network : networkId = config.networkId
      · rw [if_neg (not_not_intro network)] at forged
        cases elapsed with
        | none => cases forged
        | some times =>
          cases forged
          exact ⟨payload, times.1, times.2, rfl, by rw [network], rfl, rfl, rfl, rfl, rfl, rfl, rfl⟩
      · rw [if_pos network] at forged
        cases forged
  · rw [if_pos same] at forged
    cases forged

/-- The mining info of a chain has its height. -/
theorem Caches.height {miningInfo other : MiningInfo} {rows : List Row}
    (caches : Caches config miningInfo rows) (also : Caches config other rows) :
    miningInfo.height = other.height := by
  obtain ⟨row, older, known, height, -, -⟩ := caches.newest
  obtain ⟨row', older', known', height', -, -⟩ := also.newest
  rw [known] at known'
  cases known'
  exact Int.ofNat.inj (height.symm.trans height')

/-- Either nothing is stored yet, or a chain is, and a mining info belongs to it; a running process
has such a one. -/
inductive Consistent (config : DbConfig) (db : DB) : Prop
  | fresh (rows : db.rows = []) (cache : db.cache = none)
  | stored (chain : Chain config db.rows) {last : MiningInfo} (caches : Caches config last db.rows)
      (small : last.height < 2 ^ 31)
      (cached : ∀ miningInfo, db.cache = some miningInfo → Caches config miningInfo db.rows)

theorem Consistent.kill {db : DB} (consistent : Consistent config db) :
    Consistent config { db with cache := none } := by
  cases consistent with
  | fresh rows _ => exact .fresh rows rfl
  | stored chain caches small _ =>
    refine .stored chain caches small ?_
    rintro _ ⟨⟩

/-- The mining info that is made of the newest row. -/
theorem fromBlock_newest (laws : HexLaws config) {last : MiningInfo} {row : Row}
    {older : List Row} (caches : Caches config last (row :: older)) (small : last.height < 2 ^ 31)
    (blockHash : List Char) :
    ∃ miningInfo, MiningInfo.fromBlock config row.block blockHash = .ok miningInfo ∧
      Caches config miningInfo (row :: older) := by
  obtain ⟨row', older', known, height, baseTarget, signature⟩ := caches.newest
  cases known
  refine ⟨⟨last.generationSignature, last.baseTarget, last.height, blockHash, maxQuality⟩, ?_,
    caches.length, row, older, rfl, height, baseTarget, signature⟩
  rw [MiningInfo.fromBlock, signature, laws.decode_encode]
  dsimp only
  rw [if_pos caches.length, height, asU64_of_lt small, baseTarget]

theorem MiningInfo.length_new (height baseTarget : Nat) (generationSignature : List Char)
    (random : Vector UInt8 32) (blockHash : List Char) :
    (MiningInfo.new config height baseTarget generationSignature random
      blockHash).generationSignature.length = 32 := by
  dsimp only [MiningInfo.new]
  by_cases decoded : ((config.hexDecode generationSignature).getD []).length = 32
  · rw [if_pos decoded]
    exact decoded
  · rw [if_neg decoded]
    exact random.length_toList

theorem Consistent.new (laws : HexLaws config) {db : DB} (consistent : Consistent config db)
    (now : Int) (random : Vector UInt8 32) (blockHash : List Char)
    (queryFails : Bool) : Consistent config (db.new config now random blockHash queryFails) := by
  cases consistent with
  | fresh rows _ =>
    have unseen : (if queryFails then none else getLatestBlock db.rows) = none := by
      simp [rows, getLatestBlock, byHeight]
    simp only [DB.new, unseen]
    have inserted : insertRow (genesisRow config (MiningInfo.new config 0
        (genesisBaseTarget config.blockTimeSeconds) config.genesisSignature random blockHash) now)
        db.rows = some [genesisRow config (MiningInfo.new config 0
          (genesisBaseTarget config.blockTimeSeconds) config.genesisSignature random blockHash)
            now] := by
      rw [rows]
      rfl
    rw [inserted]
    have caches : Caches config (MiningInfo.new config 0
        (genesisBaseTarget config.blockTimeSeconds) config.genesisSignature random blockHash)
        [genesisRow config (MiningInfo.new config 0 (genesisBaseTarget config.blockTimeSeconds)
          config.genesisSignature random blockHash) now] :=
      ⟨MiningInfo.length_new _ _ _ _ _, _, _, rfl, rfl, rfl, rfl⟩
    refine .stored (.genesis rfl rfl) caches (by decide : (0 : Nat) < 2 ^ 31) ?_
    rintro _ ⟨⟩
    exact caches
  | stored chain caches small cached =>
    obtain ⟨row, older, known, -⟩ := caches.newest
    cases queryFails with
    | true =>
      -- The key of the genesis row is taken.
      have taken : ∀ miningInfo : MiningInfo, miningInfo.height = 0 →
          insertRow (genesisRow config miningInfo now) db.rows = none := by
        intro miningInfo zero
        rw [insertRow, if_pos]
        have heights := chain.heights
        have first : (0 : Int) ∈ db.rows.map (·.block.height) := by
          rw [heights, known]
          simp
        obtain ⟨other, listed, same⟩ := List.mem_map.mp first
        apply List.any_eq_true.mpr
        refine ⟨other, listed, decide_eq_true ?_⟩
        rw [same, genesisRow, zero]
        rfl
      simp only [DB.new, ↓reduceIte]
      rw [taken _ rfl]
      exact .stored chain caches small cached
    | false =>
      have latest : getLatestBlock db.rows = some row := by
        rw [getLatestBlock, chain.byHeight, known, List.head?_cons]
      simp only [DB.new, Bool.false_eq_true, ↓reduceIte, latest]
      rw [known] at caches
      obtain ⟨miningInfo, read, again⟩ := fromBlock_newest laws caches small blockHash
      rw [read]
      rw [← known] at caches again
      refine .stored chain caches small ?_
      rintro _ ⟨⟩
      exact again

theorem Consistent.forgeBlock (laws : HexLaws config) {db : DB} {miningInfo : MiningInfo}
    (consistent : Consistent config db) (running : db.cache = some miningInfo)
    (fits : miningInfo.height + 1 < 2 ^ 31) (submission : Submission) (forgeTime now : Int)
    (blockHash : List Char) (queryFails : Bool) :
    Consistent config
      (db.forgeBlock config miningInfo submission forgeTime now blockHash queryFails false) := by
  cases consistent with
  | fresh _ cache =>
    rw [cache] at running
    cases running
  | stored chain caches small cached =>
    simp only [DB.forgeBlock]
    cases forged : Mockchain.forgeBlock config.toPoCXConfig miningInfo submission
        (if queryFails then none else getElapsedTime config.lookbackBlocks now db.rows)
        blockHash with
    | none => exact .stored chain caches small cached
    | some result =>
      obtain ⟨newMiningInfo, block⟩ := result
      obtain ⟨payload, seconds, blocks, elapsed, decoded, newHeight, newTarget, newSignature,
        height, target, signature, generator⟩ := forgeBlock_some forged
      obtain ⟨length, parent, older, known, parentHeight, parentTarget, parentSignature⟩ :=
        cached miningInfo running
      have above : block.height = parent.block.height + 1 := by
        rw [height, asI32_of_lt fits, parentHeight]
        rfl
      have timed : getElapsedTime config.lookbackBlocks now (parent :: older) =
          some (seconds, blocks) := by
        cases queryFails with
        | true => cases elapsed
        | false =>
          rw [known] at elapsed
          exact elapsed
      have follows : Follows config ⟨block, forgeTime⟩ parent older := by
        refine ⟨above, ⟨miningInfo.generationSignature, payload, parentSignature, ?_, ?_⟩,
          now, seconds, blocks, timed, ?_⟩
        · rw [generator]
          exact decoded
        · rw [signature, newSignature]
        · rw [target, newTarget, parentTarget]
      have inserted : insertRow ⟨block, forgeTime⟩ db.rows = some (⟨block, forgeTime⟩ :: db.rows) :=
        chain.insertRow known above
      rw [known] at chain inserted
      simp only [known, inserted, Option.getD_some, Bool.false_eq_true, ↓reduceIte]
      have extended : Chain config (⟨block, forgeTime⟩ :: parent :: older) := chain.next follows
      have renewed : Caches config newMiningInfo (⟨block, forgeTime⟩ :: parent :: older) := by
        refine ⟨?_, _, _, rfl, ?_, target, signature⟩
        · rw [newSignature]
          exact laws.length_next _ _
        · rw [height, newHeight, asI32_of_lt fits]
      refine .stored extended renewed (newHeight ▸ fits) ?_
      rintro _ ⟨⟩
      exact renewed

theorem Consistent.step (laws : HexLaws config) {before after : DB} {label : DbLabel}
    (consistent : Consistent config before) (stores : Stores before label)
    (taken : before.step config label = some after) : Consistent config after := by
  cases label with
  | new now random blockHash queryFails =>
    cases running : before.cache with
    | none =>
      simp only [DB.step, running, Option.some.injEq] at taken
      cases taken
      exact consistent.new laws now random blockHash queryFails
    | some miningInfo => simp [DB.step, running] at taken
  | kill =>
    cases taken
    exact consistent.kill
  | forgeBlock submission forgeTime now blockHash queryFails insertFails =>
    obtain ⟨rfl, fits⟩ := stores
    obtain ⟨miningInfo, running, same⟩ := Option.map_eq_some_iff.mp taken
    cases same
    exact consistent.forgeBlock laws running (fits miningInfo running) submission forgeTime now
      blockHash queryFails

end forging

/-- However often the process is killed and started, and whatever is forged: the table holds one
chain, whose heights count its rows, whose signatures and base targets come from the rows before
and whose base targets stay between 1 and that of the genesis; and a running process, also one
just started, has the mining info of the newest row. -/
theorem table_is_chain (config : DbConfig) (laws : HexLaws config)
    (blockTime : 0 < config.blockTimeSeconds ∧ config.blockTimeSeconds ≤ 2 ^ 42) (db : DB)
    (reached : Reachable (dbSystem config) Stores db) (stored : db.rows ≠ []) :
    Chain config db.rows ∧
      db.rows.map (·.block.height) = (List.range db.rows.length).reverse.map Int.ofNat ∧
      (∀ row ∈ db.rows, 1 ≤ row.block.baseTarget ∧
        row.block.baseTarget ≤ genesisBaseTarget config.blockTimeSeconds) ∧
      ∀ miningInfo, db.cache = some miningInfo → Caches config miningInfo db.rows := by
  have consistent : Consistent config db := by
    apply reached.invariant
    · rintro _ rfl
      exact .fresh rfl rfl
    · intro before label after consistent stores taken
      exact consistent.step laws stores taken
  cases consistent with
  | fresh rows _ => exact absurd rows stored
  | stored chain _ _ cached =>
    exact ⟨chain, chain.heights, chain.baseTarget_bounds blockTime, cached⟩

section chainNet

def hexDigit (digit : Char) : Option Nat :=
  if '0' ≤ digit ∧ digit ≤ '9' then some (digit.toNat - '0'.toNat)
  else if 'a' ≤ digit ∧ digit ≤ 'f' then some (digit.toNat - 'a'.toNat + 10)
  else if 'A' ≤ digit ∧ digit ≤ 'F' then some (digit.toNat - 'A'.toNat + 10)
  else none

/-- `hex::decode` -/
def hexDecode : List Char → Option (List UInt8)
  | [] => some []
  | [_] => none
  | high :: low :: rest => do
    let first ← hexDigit high
    let second ← hexDigit low
    let bytes ← hexDecode rest
    return UInt8.ofNat (16 * first + second) :: bytes

theorem hexDigit_digitChar : ∀ value < 16, hexDigit (Nat.digitChar value) = some value := by
  decide

theorem hexDecode_encode (bytes : List UInt8) :
    hexDecode (mocknet.hexEncode bytes) = some bytes := by
  induction bytes with
  | nil => rfl
  | cons byte rest ih =>
    have small : byte.toNat < 256 := byte.toNat_lt
    have high := hexDigit_digitChar (byte.toNat / 16) (by omega)
    have low := hexDigit_digitChar (byte.toNat % 16) (Nat.mod_lt _ (by decide))
    have joined : 16 * (byte.toNat / 16) + byte.toNat % 16 = byte.toNat := Nat.div_add_mod _ _
    have encoded : mocknet.hexEncode (byte :: rest) = Nat.digitChar (byte.toNat / 16) ::
        Nat.digitChar (byte.toNat % 16) :: mocknet.hexEncode rest := rfl
    rw [encoded, hexDecode, high, low, ih]
    simp only [Option.pure_def, Option.bind_eq_bind, Option.bind_some, joined, UInt8.ofNat_toNat]

/-- `calculate_next_generation_signature` -/
def calculateNextGenerationSignature (oldGenerationSignature generatorPubKey : List UInt8) :
    List UInt8 :=
  let key := fun i => generatorPubKey.getD i 0
  let data : ByteStore.Bytes :=
    ⟨64, fun i => if i < 32 then oldGenerationSignature.getD i 0 else key (i - 32)⟩
  let term : Hashlib.Words 16 := Vector.ofFn fun i =>
    if i.val < 8 then Hashlib.Shabal256.leWord (fun j => key (32 + j)) i
    else if i.val = 8 then 0x80 else 0
  List.ofFn (Hashlib.shabal256 data none term)

def chainNet : DbConfig :=
  { mocknet with
    hexDecode := hexDecode
    calculateNextGenerationSignature := calculateNextGenerationSignature
    lookbackBlocks := 24
    genesisSignature := [] }

theorem chainNet_laws : HexLaws chainNet where
  decode_encode := hexDecode_encode
  length_next := fun _ _ => List.length_ofFn

def genesisInfo : MiningInfo where
  generationSignature := List.replicate 32 0
  baseTarget := genesisBaseTarget 120
  height := 0
  blockHash := ['0']
  targetQuality := maxQuality

theorem new_genesis : DB.new chainNet ⟨[], none⟩ 0 (Vector.replicate 32 0) ['0'] false =
    ⟨[genesisRow chainNet genesisInfo 0], some genesisInfo⟩ := by
  have empty : getLatestBlock [] = none := by simp [getLatestBlock, byHeight]
  simp only [DB.new, Bool.false_eq_true, ↓reduceIte, empty]
  rfl

/-- A block is forged a minute behind the genesis. -/
theorem table_is_chain_two_blocks :
    ∃ db : DB, db.rows.map (·.block.height) = [1, 0] ∧ Chain chainNet db.rows := by
  obtain ⟨db, reached, heights⟩ : ∃ db : DB, Reachable (dbSystem chainNet) Stores db ∧
      db.rows.map (·.block.height) = [1, 0] := by
    have created := @Reachable.next _ _ (dbSystem chainNet) Stores _ _
      (DbLabel.new 0 (Vector.replicate 32 0) ['0'] false) (.start rfl) trivial rfl
    rw [new_genesis] at created
    have fits : Stores ⟨[genesisRow chainNet genesisInfo 0], some genesisInfo⟩
        (.forgeBlock ⟨0, Address.versionZero, [], 1, 5, 0⟩ (60 * 10 ^ 9) (60 * 10 ^ 9) ['1']
          false false) := by
      refine ⟨rfl, ?_⟩
      rintro _ ⟨⟩
      decide
    refine ⟨_, Reachable.next created fits rfl, ?_⟩
    have elapsed : getElapsedTime 24 (60 * 10 ^ 9) [genesisRow chainNet genesisInfo 0] =
        some (60, 1) := by
      simp [getElapsedTime, byHeight, limit, genesisRow]
    simp only [DB.forgeBlock, Bool.false_eq_true, ↓reduceIte]
    have lookback : chainNet.lookbackBlocks = 24 := rfl
    rw [lookback, elapsed]
    rfl
  have stored : db.rows ≠ [] := by
    intro empty
    rw [empty] at heights
    cases heights
  exact ⟨db, heights,
    (table_is_chain chainNet chainNet_laws (by decide) db reached stored).1⟩

end chainNet

end Pocx.Mockchain
