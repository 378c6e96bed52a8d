import Pocx.Lib.KeyedMap
import Pocx.Lib.Transition
import Pocx.Miner.Hasher

set_option autoImplicit false

namespace Pocx.NonceFilter

open KeyedMap (Map values setAll)
open Transition (System Reachable always)
open Hasher (NonceSubmission SubmissionParameters)

inductive SubmissionMode
  | pool
  | wallet
deriving DecidableEq

/-- `u64::MAX` -/
def maxQuality : UInt64 := UInt64.ofNat (2 ^ 64 - 1)

/-- The fields of `MiningInfo` that `update_mining_info` reads. -/
structure MiningInfo where
  generationSignature : String
  baseTarget : UInt64
  blockHash : String
  targetQuality : Option UInt64
deriving DecidableEq

structure ChainAccount where
  account : String
  targetQuality : Option UInt64

/-- The configuration of a chain. -/
structure Chain where
  targetQuality : Option UInt64
  accounts : List ChainAccount
  submissionMode : SubmissionMode

structure ChainState where
  generationSignature : String
  blockHash : String
  baseTarget : UInt64
  accountIdToBestQuality : Map String UInt64
  accountIdToTargetQuality : Map String UInt64
  block : Nat
  submissionMode : SubmissionMode

/-- `ChainState::default` -/
def ChainState.default : ChainState where
  generationSignature := ""
  blockHash := ""
  baseTarget := 0
  accountIdToBestQuality := ∅
  accountIdToTargetQuality := ∅
  block := 0
  submissionMode := .pool

/-- The target of an account for a block: the least of the account's, the chain's and the
pool's. -/
def effectiveTarget (chain : Chain) (miningInfo : MiningInfo) (accountPayload : String) : UInt64 :=
  let accountTarget := ((chain.accounts.find? fun account => account.account == accountPayload).bind
    ChainAccount.targetQuality).getD maxQuality
  let chainTarget := chain.targetQuality.getD maxQuality
  let poolTarget := miningInfo.targetQuality.getD maxQuality
  min (min accountTarget chainTarget) poolTarget

/-- `ChainState::update_mining_info` -/
def ChainState.updateMiningInfo (state : ChainState) (miningInfo : MiningInfo) (chain : Chain)
    (knownAccountPayloads : List String) : ChainState where
  generationSignature := miningInfo.generationSignature
  blockHash := miningInfo.blockHash
  baseTarget := miningInfo.baseTarget
  submissionMode := chain.submissionMode
  accountIdToBestQuality := setAll state.accountIdToBestQuality maxQuality
  accountIdToTargetQuality :=
    knownAccountPayloads.foldl (fun targets accountPayload =>
      targets.insert accountPayload (effectiveTarget chain miningInfo accountPayload))
      state.accountIdToTargetQuality
  block := state.block + 1

/-- The raw quality over the base target, `u64::MAX` where that is zero. -/
def adjustedQuality (rawQuality baseTarget : UInt64) : UInt64 :=
  if baseTarget = 0 then maxQuality else rawQuality / baseTarget

/-- The best quality that a nonce of an account has to beat. -/
def ChainState.bestQuality (state : ChainState) (accountId : String) : UInt64 :=
  match state.submissionMode with
  | .wallet => (values state.accountIdToBestQuality).min?.getD maxQuality
  | .pool => (state.accountIdToBestQuality.lookup accountId).getD maxQuality

/-- What the nonce submission task does with a nonce: the new state, if it submits it. -/
def ChainState.submit (state : ChainState) (nonce : NonceSubmission) : Option ChainState :=
  if state.generationSignature.toLower = nonce.generationSignature then
    let quality := adjustedQuality nonce.rawQuality state.baseTarget
    let targetQuality := (state.accountIdToTargetQuality.lookup nonce.accountId).getD maxQuality
    if quality < state.bestQuality nonce.accountId ∧ quality < targetQuality then
      some { state with
        accountIdToBestQuality := state.accountIdToBestQuality.insert nonce.accountId quality }
    else none
  else none

/-- The configuration of the miner. -/
structure Miner where
  chains : Nat → Chain
  knownAccountPayloads : List String

/-- A nonce handed to the request handler of its chain, and its adjusted quality. -/
structure Forwarded where
  chainId : Nat
  parameters : SubmissionParameters
  quality : UInt64
deriving DecidableEq

/-- The chain states, with the blocks that each chain went through, the last one first,
and the nonces submitted so far. -/
structure State where
  chainStates : Nat → ChainState
  blocks : Nat → List MiningInfo
  forwarded : List Forwarded

inductive Event
  | miningInfo (chainId : Nat) (miningInfo : MiningInfo)
  | nonce (chainId : Nat) (parameters : SubmissionParameters)

/-- A nonce was computed for a block. `hex::encode` writes the decoded signature in lower case. -/
def ComputedFor (nonce : NonceSubmission) (miningInfo : MiningInfo) : Prop :=
  nonce.blockHash = miningInfo.blockHash ∧
    nonce.generationSignature = miningInfo.generationSignature.toLower

instance (nonce : NonceSubmission) (miningInfo : MiningInfo) :
    Decidable (ComputedFor nonce miningInfo) :=
  inferInstanceAs (Decidable (_ ∧ _))

/-- A mining info comes in, or a nonce for any block so far. -/
def step (miner : Miner) (state : State) : Event → Option State
  | .miningInfo chainId miningInfo =>
    if miningInfo.blockHash ≠ (state.chainStates chainId).blockHash then
      some { state with
        chainStates := Function.update state.chainStates chainId
          ((state.chainStates chainId).updateMiningInfo miningInfo (miner.chains chainId)
            miner.knownAccountPayloads)
        blocks := Function.update state.blocks chainId (miningInfo :: state.blocks chainId) }
    else some state
  | .nonce chainId parameters =>
    if ∃ miningInfo ∈ state.blocks chainId, ComputedFor parameters.nonceSubmission miningInfo then
      match (state.chainStates chainId).submit parameters.nonceSubmission with
      | some chainState =>
        some { state with
          chainStates := Function.update state.chainStates chainId chainState
          forwarded :=
            { chainId := chainId
              parameters := parameters
              quality := adjustedQuality parameters.nonceSubmission.rawQuality
                (state.chainStates chainId).baseTarget } :: state.forwarded }
      | none => some state
    else none

def system (miner : Miner) : System State Event where
  initial state := state = { chainStates := fun _ => .default, blocks := fun _ => [], forwarded := [] }
  step := step miner

/-- The test by signature tells what a test by block hash would tell. -/
def testsCurrency (state : State) : Event → Prop
  | .miningInfo _ _ => True
  | .nonce chainId parameters =>
    (state.chainStates chainId).generationSignature.toLower =
        parameters.nonceSubmission.generationSignature ↔
      (state.chainStates chainId).blockHash = parameters.nonceSubmission.blockHash

instance (state : State) : (event : Event) → Decidable (testsCurrency state event)
  | .miningInfo _ _ => instDecidableTrue
  | .nonce _ _ => inferInstanceAs (Decidable (_ ↔ _))

/-- The target of any account for a block. -/
def targetQuality (miner : Miner) (chainId : Nat) (miningInfo : MiningInfo) (accountId : String) :
    UInt64 :=
  if accountId ∈ miner.knownAccountPayloads then
    effectiveTarget (miner.chains chainId) miningInfo accountId
  else maxQuality

/-- A nonce that competes with those of an account. -/
def Competes (mode : SubmissionMode) (accountId : String) (forwarded : Forwarded) : Prop :=
  mode = .wallet ∨ forwarded.parameters.nonceSubmission.accountId = accountId

/-- A chain state holds its last block and the targets for it. -/
structure Follows (miner : Miner) (chainId : Nat) (chainState : ChainState)
    (miningInfo : MiningInfo) : Prop where
  generationSignature : chainState.generationSignature = miningInfo.generationSignature
  blockHash : chainState.blockHash = miningInfo.blockHash
  baseTarget : chainState.baseTarget = miningInfo.baseTarget
  submissionMode : chainState.submissionMode = (miner.chains chainId).submissionMode
  target : ∀ accountId, (chainState.accountIdToTargetQuality.lookup accountId).getD maxQuality =
    targetQuality miner chainId miningInfo accountId

/-- Every recorded quality is that of a nonce submitted for the block. -/
def Recorded (chainId : Nat) (chainState : ChainState) (forwarded : List Forwarded) : Prop :=
  ∀ accountId quality, chainState.accountIdToBestQuality.lookup accountId = some quality →
    quality = maxQuality ∨ ∃ sent ∈ forwarded, sent.chainId = chainId ∧
      sent.parameters.nonceSubmission.blockHash = chainState.blockHash ∧
      sent.parameters.nonceSubmission.accountId = accountId ∧ sent.quality = quality

structure Invariant (miner : Miner) (state : State) : Prop where
  follows : ∀ chainId miningInfo, (state.blocks chainId).head? = some miningInfo →
    Follows miner chainId (state.chainStates chainId) miningInfo
  unknown : ∀ chainId accountId, accountId ∉ miner.knownAccountPayloads →
    (state.chainStates chainId).accountIdToTargetQuality.lookup accountId = none
  recorded : ∀ chainId, Recorded chainId (state.chainStates chainId) state.forwarded

theorem start_invariant (miner : Miner) (state : State) (initial : (system miner).initial state) :
    Invariant miner state := by
  cases initial
  refine ⟨nofun, fun _ _ _ => rfl, ?_⟩
  intro chainId accountId quality present
  cases present

theorem updateMiningInfo_follows (miner : Miner) (chainId : Nat) (chainState : ChainState)
    (miningInfo : MiningInfo)
    (unknown : ∀ accountId, accountId ∉ miner.knownAccountPayloads →
      chainState.accountIdToTargetQuality.lookup accountId = none) :
    Follows miner chainId
      (chainState.updateMiningInfo miningInfo (miner.chains chainId) miner.knownAccountPayloads)
      miningInfo := by
  refine ⟨rfl, rfl, rfl, rfl, ?_⟩
  intro accountId
  simp only [ChainState.updateMiningInfo, targetQuality]
  rw [KeyedMap.lookup_insertAll]
  split
  · rfl
  · rename_i stranger
    rw [unknown accountId stranger, Option.getD_none]

/-- A new block forgets the recorded qualities. -/
theorem updateMiningInfo_recorded (chainId : Nat) (chainState : ChainState)
    (miningInfo : MiningInfo) (chain : Chain) (known : List String) (forwarded : List Forwarded) :
    Recorded chainId (chainState.updateMiningInfo miningInfo chain known) forwarded := by
  intro accountId quality present
  exact Or.inl (KeyedMap.lookup_setAll _ _ _ _ present)

/-- What a submission takes and what it changes. -/
theorem submit_some (chainState after : ChainState) (nonce : NonceSubmission)
    (submitted : chainState.submit nonce = some after) :
    chainState.generationSignature.toLower = nonce.generationSignature ∧
      after = { chainState with
        accountIdToBestQuality := chainState.accountIdToBestQuality.insert nonce.accountId
          (adjustedQuality nonce.rawQuality chainState.baseTarget) } := by
  unfold ChainState.submit at submitted
  split at submitted
  · rename_i current
    simp only [Option.ite_none_right_eq_some] at submitted
    exact ⟨current, (Option.some.inj submitted.2).symm⟩
  · cases submitted

theorem submit_recorded (chainId : Nat) (chainState after : ChainState)
    (parameters : SubmissionParameters) (forwarded : List Forwarded)
    (recorded : Recorded chainId chainState forwarded)
    (submitted : chainState.submit parameters.nonceSubmission = some after)
    (current : parameters.nonceSubmission.blockHash = chainState.blockHash) :
    Recorded chainId after
      ({ chainId := chainId
         parameters := parameters
         quality := adjustedQuality parameters.nonceSubmission.rawQuality chainState.baseTarget } ::
        forwarded) := by
  obtain ⟨-, rfl⟩ := submit_some _ _ _ submitted
  intro accountId quality present
  simp only [KeyedMap.lookup_insert] at present
  split at present
  · rename_i same
    cases present
    exact Or.inr ⟨_, List.mem_cons_self, rfl, current, same.symm, rfl⟩
  · rcases recorded accountId quality present with top | ⟨sent, member, chain, hash, account, value⟩
    · exact Or.inl top
    · exact Or.inr ⟨sent, List.mem_cons_of_mem _ member, chain, hash, account, value⟩

/-- The two kinds of steps. -/
theorem step_cases (miner : Miner) (state after : State) (event : Event)
    (taken : step miner state event = some after) :
    after = state ∨
    (∃ chainId miningInfo, event = .miningInfo chainId miningInfo ∧
      after = { state with
        chainStates := Function.update state.chainStates chainId
          ((state.chainStates chainId).updateMiningInfo miningInfo (miner.chains chainId)
            miner.knownAccountPayloads)
        blocks := Function.update state.blocks chainId (miningInfo :: state.blocks chainId) }) ∨
    ∃ chainId parameters chainState, event = .nonce chainId parameters ∧
      (state.chainStates chainId).submit parameters.nonceSubmission = some chainState ∧
      after = { state with
        chainStates := Function.update state.chainStates chainId chainState
        forwarded :=
          { chainId := chainId
            parameters := parameters
            quality := adjustedQuality parameters.nonceSubmission.rawQuality
              (state.chainStates chainId).baseTarget } :: state.forwarded } := by
  cases event with
  | miningInfo chainId miningInfo =>
    simp only [step] at taken
    split at taken
    · cases taken
      exact Or.inr (Or.inl ⟨chainId, miningInfo, rfl, rfl⟩)
    · cases taken
      exact Or.inl rfl
  | nonce chainId parameters =>
    simp only [step] at taken
    split at taken
    · split at taken
      · rename_i chainState submitted
        cases taken
        exact Or.inr (Or.inr ⟨chainId, parameters, chainState, rfl, submitted, rfl⟩)
      · cases taken
        exact Or.inl rfl
    · cases taken

theorem step_invariant (miner : Miner) (before : State) (event : Event) (after : State)
    (invariant : Invariant miner before) (agrees : testsCurrency before event)
    (taken : (system miner).step before event = some after) : Invariant miner after := by
  obtain ⟨follows, unknown, recorded⟩ := invariant
  rcases step_cases miner before after event taken with
    rfl | ⟨changed, miningInfo, rfl, rfl⟩ | ⟨sender, parameters, chainState, rfl, submitted, rfl⟩
  · exact ⟨follows, unknown, recorded⟩
  · refine ⟨?_, ?_, ?_⟩
    · intro chainId newest head
      by_cases same : chainId = changed
      · subst same
        simp only [Function.update_self, List.head?_cons, Option.some.injEq] at head ⊢
        subst head
        exact updateMiningInfo_follows miner chainId _ miningInfo (unknown chainId)
      · simp only [Function.update_of_ne same] at head ⊢
        exact follows chainId newest head
    · intro chainId accountId stranger
      by_cases same : chainId = changed
      · subst same
        simp only [Function.update_self, ChainState.updateMiningInfo]
        rw [KeyedMap.lookup_insertAll, if_neg stranger, unknown chainId accountId stranger]
      · simp only [Function.update_of_ne same]
        exact unknown chainId accountId stranger
    · intro chainId
      by_cases same : chainId = changed
      · subst same
        simp only [Function.update_self]
        exact updateMiningInfo_recorded chainId _ _ _ _ _
      · simp only [Function.update_of_ne same]
        exact recorded chainId
  · obtain ⟨signature, shape⟩ := submit_some _ _ _ submitted
    refine ⟨?_, ?_, ?_⟩
    · intro chainId newest head
      have before := follows chainId newest head
      by_cases same : chainId = sender
      · subst same
        simp only [Function.update_self, shape]
        exact ⟨before.generationSignature, before.blockHash, before.baseTarget,
          before.submissionMode, before.target⟩
      · simp only [Function.update_of_ne same]
        exact before
    · intro chainId accountId stranger
      have before := unknown chainId accountId stranger
      by_cases same : chainId = sender
      · subst same
        simp only [Function.update_self, shape]
        exact before
      · simp only [Function.update_of_ne same]
        exact before
    · intro chainId
      by_cases same : chainId = sender
      · subst same
        simp only [Function.update_self]
        exact submit_recorded chainId _ _ parameters _ (recorded chainId) submitted
          (agrees.mp signature).symm
      · simp only [Function.update_of_ne same]
        intro accountId quality present
        rcases recorded chainId accountId quality present with
          top | ⟨sent, member, chain, hash, account, value⟩
        · exact Or.inl top
        · exact Or.inr ⟨sent, List.mem_cons_of_mem _ member, chain, hash, account, value⟩

theorem reachable_invariant (miner : Miner) (state : State)
    (reached : Reachable (system miner) testsCurrency state) : Invariant miner state :=
  reached.invariant (Invariant miner) (start_invariant miner) (step_invariant miner)

/-- A quality below all recorded ones that count is below the best one. -/
theorem lt_bestQuality (chainState : ChainState) (accountId : String) (quality : UInt64)
    (top : quality < maxQuality)
    (below : ∀ other best, chainState.submissionMode = .wallet ∨ other = accountId →
      chainState.accountIdToBestQuality.lookup other = some best → quality < best) :
    quality < chainState.bestQuality accountId := by
  unfold ChainState.bestQuality
  split
  · rename_i wallet
    cases least : (values chainState.accountIdToBestQuality).min? with
    | none => exact top
    | some best =>
      obtain ⟨other, present⟩ := KeyedMap.mem_values _ _ (List.min?_mem least)
      exact below other best (Or.inl wallet) present
  · cases present : chainState.accountIdToBestQuality.lookup accountId with
    | none => exact top
    | some best => exact below accountId best (Or.inr rfl) present

/-- What the filter is for, at the arrival of a nonce while `miningInfo` is the block of its
chain. -/
structure ForwardsBest (miner : Miner) (state : State) (chainId : Nat)
    (parameters : SubmissionParameters) (miningInfo : MiningInfo) (after : State) : Prop where
  current_only : after.forwarded ≠ state.forwarded →
    parameters.nonceSubmission.blockHash = miningInfo.blockHash
  best : parameters.nonceSubmission.blockHash = miningInfo.blockHash →
    adjustedQuality parameters.nonceSubmission.rawQuality miningInfo.baseTarget <
      targetQuality miner chainId miningInfo parameters.nonceSubmission.accountId →
    (∀ sent ∈ state.forwarded, sent.chainId = chainId →
      sent.parameters.nonceSubmission.blockHash = miningInfo.blockHash →
      Competes (miner.chains chainId).submissionMode parameters.nonceSubmission.accountId sent →
      adjustedQuality parameters.nonceSubmission.rawQuality miningInfo.baseTarget < sent.quality) →
    after.forwarded =
      { chainId := chainId
        parameters := parameters
        quality := adjustedQuality parameters.nonceSubmission.rawQuality miningInfo.baseTarget } ::
      state.forwarded

/-- A nonce of the current block, under the target and below what competes with it. -/
theorem submit_best (miner : Miner) (chainId : Nat) (chainState : ChainState)
    (miningInfo : MiningInfo) (nonce : NonceSubmission) (forwarded : List Forwarded)
    (follows : Follows miner chainId chainState miningInfo)
    (recorded : Recorded chainId chainState forwarded)
    (current : chainState.generationSignature.toLower = nonce.generationSignature)
    (target : adjustedQuality nonce.rawQuality miningInfo.baseTarget <
      targetQuality miner chainId miningInfo nonce.accountId)
    (below : ∀ sent ∈ forwarded, sent.chainId = chainId →
      sent.parameters.nonceSubmission.blockHash = miningInfo.blockHash →
      Competes (miner.chains chainId).submissionMode nonce.accountId sent →
      adjustedQuality nonce.rawQuality miningInfo.baseTarget < sent.quality) :
    ∃ after, chainState.submit nonce = some after := by
  have top : adjustedQuality nonce.rawQuality miningInfo.baseTarget < maxQuality := by
    have bound : targetQuality miner chainId miningInfo nonce.accountId ≤ maxQuality :=
      Hashlib.le_maxQuality _
    exact UInt64.lt_of_lt_of_le target bound
  have best : adjustedQuality nonce.rawQuality miningInfo.baseTarget <
      chainState.bestQuality nonce.accountId := by
    apply lt_bestQuality _ _ _ top
    intro other quality competes present
    rcases recorded other quality present with rfl | ⟨sent, member, chain, hash, account, rfl⟩
    · exact top
    · apply below sent member chain (hash.trans follows.blockHash)
      rw [Competes, account, ← follows.submissionMode]
      exact competes
  rw [ChainState.submit, if_pos current, follows.baseTarget]
  simp only [follows.target]
  rw [if_pos ⟨best, target⟩]
  exact ⟨_, rfl⟩

/-- In every run in which the signatures tell the blocks apart, the filter forwards the
nonces of the current block only, and among these every new best one. -/
theorem forwards_best (miner : Miner) (state : State)
    (reached : Reachable (system miner) testsCurrency state) (chainId : Nat)
    (parameters : SubmissionParameters) (miningInfo : MiningInfo) (after : State)
    (agrees : testsCurrency state (.nonce chainId parameters))
    (current : (state.blocks chainId).head? = some miningInfo)
    (taken : step miner state (.nonce chainId parameters) = some after) :
    ForwardsBest miner state chainId parameters miningInfo after := by
  have invariant := reachable_invariant miner state reached
  have follows := invariant.follows chainId miningInfo current
  have hash := follows.blockHash
  constructor
  · intro changed
    rcases step_cases miner state after _ taken with
      rfl | ⟨_, _, event, -⟩ | ⟨_, _, _, event, submitted, -⟩
    · exact absurd rfl changed
    · cases event
    · cases event
      obtain ⟨signature, -⟩ := submit_some _ _ _ submitted
      rw [← hash]
      exact (agrees.mp signature).symm
  · intro ofBlock target below
    have signature := agrees.mpr (hash.trans ofBlock.symm)
    obtain ⟨chainState, submitted⟩ := submit_best miner chainId _ miningInfo
      parameters.nonceSubmission state.forwarded follows (invariant.recorded chainId) signature
      target below
    simp only [step, submitted, Option.ite_none_right_eq_some] at taken
    obtain ⟨-, taken⟩ := taken
    cases taken
    simp only [follows.baseTarget]

/-- Blocks whose signatures differ exactly where their hashes do. -/
def Distinguishable (blocks : List MiningInfo) : Prop :=
  ∀ first ∈ blocks, ∀ second ∈ blocks,
    first.generationSignature.toLower = second.generationSignature.toLower ↔
      first.blockHash = second.blockHash

/-- Over such blocks every nonce meets the condition of `forwards_best`. -/
theorem distinguishable_testsCurrency (miner : Miner) (state after : State) (chainId : Nat)
    (parameters : SubmissionParameters) (invariant : Invariant miner state)
    (distinguishable : Distinguishable (state.blocks chainId))
    (taken : step miner state (.nonce chainId parameters) = some after) :
    testsCurrency state (.nonce chainId parameters) := by
  simp only [step, Option.ite_none_right_eq_some] at taken
  obtain ⟨⟨computed, member, hash, signature⟩, -⟩ := taken
  cases newest : (state.blocks chainId).head? with
  | none =>
    rw [List.head?_eq_none_iff] at newest
    rw [newest] at member
    cases member
  | some current =>
    have follows := invariant.follows chainId current newest
    rw [testsCurrency, follows.generationSignature, follows.blockHash, hash, signature]
    exact distinguishable current (List.mem_of_mem_head? newest) computed member

/-- A pool chain with one account. -/
def poolMiner : Miner where
  chains := fun _ =>
    { targetQuality := none
      accounts := []
      submissionMode := .pool }
  knownAccountPayloads := ["a"]

def zeroSignature : String := "0000000000000000000000000000000000000000000000000000000000000000"

def oneSignature : String := "0101010101010101010101010101010101010101010101010101010101010101"

def block (generationSignature blockHash : String) : MiningInfo where
  generationSignature := generationSignature
  baseTarget := 1
  blockHash := blockHash
  targetQuality := none

def nonceFor (miningInfo : MiningInfo) (rawQuality : UInt64) : SubmissionParameters where
  chain := "chain"
  blockCount := 1
  nonceSubmission :=
    { blockHash := miningInfo.blockHash
      accountId := "a"
      seed := ""
      nonce := 0
      blockHeight := 0
      generationSignature := miningInfo.generationSignature
      baseTarget := miningInfo.baseTarget
      rawQuality := rawQuality
      compression := 1 }

def start : State := { chainStates := fun _ => .default, blocks := fun _ => [], forwarded := [] }

/-- A late nonce of the first block arrives under the second one. -/
def lateRun (first second : MiningInfo) : List Event :=
  [.miningInfo 0 first, .miningInfo 0 second, .nonce 0 (nonceFor first 5)]

theorem forwards_best_late_nonce :
    ∃ state after, ForwardsBest poolMiner state 0 (nonceFor (block oneSignature "b") 7)
        (block oneSignature "b") after ∧
      after.forwarded.length = 1 := by
  have complete : (Transition.runAllowed (system poolMiner) (fun state event =>
      decide (testsCurrency state event)) start
      (lateRun (block zeroSignature "a") (block oneSignature "b"))).any (fun state =>
        decide ((state.blocks 0).head? = some (block oneSignature "b")) &&
        decide (testsCurrency state (.nonce 0 (nonceFor (block oneSignature "b") 7))) &&
        (step poolMiner state (.nonce 0 (nonceFor (block oneSignature "b") 7))).any
          fun after => after.forwarded.length == 1) = true := by
    decide +kernel
  obtain ⟨state, finished, holds⟩ := (Option.any_eq_true _ _).mp complete
  simp only [Bool.and_eq_true, decide_eq_true_eq] at holds
  obtain ⟨⟨current, agrees⟩, submits⟩ := holds
  obtain ⟨after, taken, count⟩ := (Option.any_eq_true _ _).mp submits
  have reached : Reachable (system poolMiner) testsCurrency state :=
    (Reachable.runAllowed _ (.start rfl) finished).mono
      fun _ _ allowed => of_decide_eq_true allowed
  exact ⟨state, after, forwards_best poolMiner state reached 0 _ _ after agrees current taken,
    beq_iff_eq.mp count⟩

/-- With one signature for both blocks the late nonce is forwarded, and then masks a nonce
of the current block. -/
theorem late_nonce_masks_best :
    ¬ ∀ (miner : Miner) (state : State), Reachable (system miner) always state →
      ∀ chainId parameters miningInfo after, (state.blocks chainId).head? = some miningInfo →
        step miner state (.nonce chainId parameters) = some after →
        ForwardsBest miner state chainId parameters miningInfo after := by
  intro claim
  have complete : (Transition.run (system poolMiner) start
      (lateRun (block zeroSignature "a") (block zeroSignature "b"))).any (fun state =>
        decide ((state.blocks 0).head? = some (block zeroSignature "b")) &&
        state.forwarded.all (fun sent =>
          sent.parameters.nonceSubmission.blockHash != "b") &&
        (step poolMiner state (.nonce 0 (nonceFor (block zeroSignature "b") 7))).any
          fun after => after.forwarded.length == state.forwarded.length) = true := by
    decide +kernel
  obtain ⟨state, finished, holds⟩ := (Option.any_eq_true _ _).mp complete
  simp only [Bool.and_eq_true, decide_eq_true_eq] at holds
  obtain ⟨⟨current, others⟩, suppressed⟩ := holds
  obtain ⟨after, taken, count⟩ := (Option.any_eq_true _ _).mp suppressed
  have best := (claim poolMiner state (Reachable.run _ (.start rfl) finished) 0 _ _ after current
    taken).best rfl (by decide) (by
      intro sent member _ hash _
      have other := List.all_eq_true.mp others sent member
      rw [hash] at other
      exact absurd other (by decide))
  rw [best, List.length_cons, beq_iff_eq] at count
  omega

end Pocx.NonceFilter
