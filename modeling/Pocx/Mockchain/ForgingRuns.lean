import Pocx.Mockchain.Forging

set_option autoImplicit false

namespace Pocx.Mockchain

open Address (Bs58 Segwit NetworkId AddressError encodeAddress decodeAddress)
open Transition (System Reachable always)

section least

variable {height : Nat} {submissions : List Submission}

theorem leastQuality_le_max : leastQuality height submissions ≤ maxQuality := by
  induction submissions with
  | nil => exact Nat.le_refl _
  | cons submission rest ih =>
    unfold leastQuality
    split
    · exact Nat.le_trans (Nat.min_le_right _ _) ih
    · exact ih

theorem leastQuality_le {submission : Submission} (listed : submission ∈ submissions)
    (same : submission.height = height) :
    leastQuality height submissions ≤ submission.quality := by
  induction submissions with
  | nil => cases listed
  | cons first rest ih =>
    unfold leastQuality
    rcases List.mem_cons.mp listed with rfl | later
    · rw [if_pos same]
      exact Nat.min_le_left _ _
    · have bound := ih later
      split
      · exact Nat.le_trans (Nat.min_le_right _ _) bound
      · exact bound

/-- The least quality is that of a submission, if there is one. -/
theorem leastQuality_attained (some : leastQuality height submissions ≠ maxQuality) :
    ∃ submission ∈ submissions, submission.height = height ∧
      submission.quality = leastQuality height submissions := by
  induction submissions with
  | nil => exact absurd rfl some
  | cons first rest ih =>
    unfold leastQuality at some ⊢
    by_cases same : first.height = height
    · rw [if_pos same] at some ⊢
      by_cases first_le : first.quality ≤ leastQuality height rest
      · rw [Nat.min_eq_left first_le]
        exact ⟨first, List.mem_cons_self, same, rfl⟩
      · have later_le : leastQuality height rest ≤ first.quality := by omega
        rw [Nat.min_eq_right later_le] at some ⊢
        obtain ⟨submission, listed, found⟩ := ih some
        exact ⟨submission, List.mem_cons_of_mem _ listed, found⟩
    · rw [if_neg same] at some ⊢
      obtain ⟨submission, listed, found⟩ := ih some
      exact ⟨submission, List.mem_cons_of_mem _ listed, found⟩

theorem leastQuality_none (none : ∀ submission ∈ submissions, submission.height ≠ height) :
    leastQuality height submissions = maxQuality := by
  induction submissions with
  | nil => rfl
  | cons first rest ih =>
    unfold leastQuality
    rw [if_neg (none first List.mem_cons_self)]
    exact ih fun submission listed => none submission (List.mem_cons_of_mem _ listed)

end least

section functions

variable {config : PoCXConfig}

/-- A call carries the height it was checked against. -/
theorem checkNonce_height {miningInfo : MiningInfo} {params : SubmitNonceParams}
    {submission : Submission} (checked : checkNonce config miningInfo params = .ok submission) :
    submission.height = miningInfo.height := by
  unfold checkNonce at checked
  simp only [bind, Except.bind, pure, Except.pure, throw, throwThe, MonadExceptOf.throw] at checked
  grind

variable {miningInfo : MiningInfo} {submission : Submission} {elapsed : Option (Nat × Nat)}
  {blockHash : List Char}

theorem forgeBlock_forged (same : submission.height = miningInfo.height)
    (forgeable : Forgeable config submission elapsed) :
    ∃ newMiningInfo block, forgeBlock config miningInfo submission elapsed blockHash =
        some (newMiningInfo, block) ∧ newMiningInfo.height = miningInfo.height + 1 ∧
      block.generator = submission.generator ∧ block.seed = submission.seed ∧
      block.nonce = asI32 submission.nonce := by
  obtain ⟨timed, payload, decoded⟩ := forgeable
  obtain ⟨times, rfl⟩ := Option.isSome_iff_exists.mp timed
  unfold forgeBlock
  rw [if_neg (not_not_intro same.symm)]
  simp only [decoded, ne_eq, not_true_eq_false, ↓reduceIte, Option.map_some]
  exact ⟨_, _, rfl, rfl, rfl, rfl, rfl⟩

theorem forgeBlock_refused
    (refused : ¬(submission.height = miningInfo.height ∧ Forgeable config submission elapsed)) :
    forgeBlock config miningInfo submission elapsed blockHash = none := by
  unfold forgeBlock
  by_cases same : submission.height = miningInfo.height
  · rw [if_neg (not_not_intro same.symm)]
    split
    · rfl
    · rename_i payload networkId decoded
      split
      · rfl
      · rename_i network
        have network : networkId = config.networkId := of_not_not network
        cases elapsed with
        | none => rfl
        | some times =>
          rw [network] at decoded
          exact absurd ⟨same, rfl, payload, decoded⟩ refused
  · exact if_pos fun equal => same equal.symm

end functions

section steps

variable {config : PoCXConfig} {state after : State}

theorem step_getMiningInfo {call : Nat} {params : SubmitNonceParams}
    (taken : step config state (.getMiningInfo call params) = some after) :
    after = state ∨ ∃ submission, checkNonce config state.miningInfo params = .ok submission ∧
      after = { state with calls := Function.update state.calls call (some submission) } := by
  simp only [step] at taken
  split at taken
  · cases taken
  · split at taken
    · cases taken
      exact Or.inl rfl
    · rename_i submission checked
      cases taken
      exact Or.inr ⟨submission, checked, rfl⟩

theorem step_compare {call task : Nat} {latest : Bool}
    (taken : step config state (.compare call task latest) = some after) :
    ∃ submission, state.calls call = some submission ∧
      after = ({ state with calls := Function.update state.calls call none }.compare submission
        task latest) := by
  simp only [step] at taken
  split at taken
  · rename_i submission waiting vacant
    cases taken
    exact ⟨submission, waiting, rfl⟩
  · cases taken

theorem step_wake {task : Nat} (taken : step config state (.wake task) = some after) :
    ∃ sleeping, state.tasks task = some sleeping ∧
      after = { state with
        tasks := Function.update state.tasks task (some { sleeping with awake := true }) } := by
  simp only [step] at taken
  split at taken
  · cases taken
  · rename_i sleeping present
    split at taken
    · cases taken
    · cases taken
      exact ⟨sleeping, present, rfl⟩

theorem step_interrupted {task : Nat}
    (taken : step config state (.interrupted task) = some after) :
    after = { state with tasks := Function.update state.tasks task none } := by
  simp only [step] at taken
  split at taken
  · cases taken
  · split at taken
    · cases taken
      rfl
    · cases taken

theorem step_forge {task : Nat} {elapsed : Option (Nat × Nat)} {blockHash : List Char}
    (taken : step config state (.forge task elapsed blockHash) = some after) :
    ∃ awake, state.tasks task = some awake ∧
      after = ({ state with tasks := Function.update state.tasks task none }.forge config
        awake.submission elapsed blockHash) := by
  simp only [step] at taken
  split at taken
  · cases taken
  · rename_i awake present
    split at taken
    · cases taken
      exact ⟨awake, present, rfl⟩
    · cases taken

variable {submission : Submission} {task : Nat} {latest : Bool}

theorem State.compare_miningInfo :
    (state.compare submission task latest).miningInfo = state.miningInfo := by
  unfold State.compare
  split
  · cases latest <;> rfl
  · rfl

theorem State.compare_bestQuality (better : submission.quality < state.bestQuality) :
    (state.compare submission task latest).bestQuality = submission.quality := by
  unfold State.compare
  rw [if_pos better]
  cases latest <;> rfl

theorem State.compare_recorded (better : submission.quality < state.bestQuality) :
    (state.compare submission task latest).recorded = submission :: state.recorded := by
  unfold State.compare
  rw [if_pos better]
  cases latest <;> rfl

end steps

/-- What holds in every run of fine steps. -/
structure Invariant (state : State) : Prop where
  best : BestRecorded state
  beaten : ∀ submission ∈ state.beaten, submission.height = state.miningInfo.height →
    state.bestQuality ≤ submission.quality
  below : ∀ submission ∈ state.recorded, submission.quality < maxQuality
  compared : ∀ submission ∈ state.recorded ++ state.beaten,
    submission.height ≤ state.miningInfo.height
  calls : ∀ call submission, state.calls call = some submission →
    submission.height ≤ state.miningInfo.height
  tasks : ∀ task forging, state.tasks task = some forging → forging.submission ∈ state.recorded

section invariant

variable {config : PoCXConfig} {state : State} {submission : Submission}

theorem interrupt_submission {tripwire : Option Nat} {tasks : Nat → Option ForgingTask}
    {task : Nat} {forging : ForgingTask} (found : interrupt tripwire tasks task = some forging) :
    ∃ earlier, tasks task = some earlier ∧ earlier.submission = forging.submission := by
  cases tripwire with
  | none => exact ⟨forging, found, rfl⟩
  | some last =>
    simp only [interrupt] at found
    by_cases same : task = last
    · subst same
      rw [Function.update_self, Option.map_eq_some_iff] at found
      obtain ⟨earlier, present, rfl⟩ := found
      exact ⟨earlier, present, rfl⟩
    · rw [Function.update_of_ne same] at found
      exact ⟨forging, found, rfl⟩

theorem Invariant.setTasks (inv : Invariant state) (tripwire : Option Nat)
    {tasks : Nat → Option ForgingTask}
    (listed : ∀ task forging, tasks task = some forging → forging.submission ∈ state.recorded) :
    Invariant { state with tripwire := tripwire, tasks := tasks } :=
  ⟨inv.best, inv.beaten, inv.below, inv.compared, inv.calls, listed⟩

/-- A task of a run is changed, or a task with a recorded submission joins it. -/
theorem Invariant.setTask (inv : Invariant state) (task : Nat) {forging : Option ForgingTask}
    (listed : ∀ changed, forging = some changed → changed.submission ∈ state.recorded) :
    Invariant { state with tasks := Function.update state.tasks task forging } := by
  apply inv.setTasks state.tripwire
  intro other changed found
  by_cases same : other = task
  · subst same
    rw [Function.update_self] at found
    exact listed changed found
  · rw [Function.update_of_ne same] at found
    exact inv.tasks other changed found

theorem Invariant.setCall (inv : Invariant state) (call : Nat) {waiting : Option Submission}
    (bounded : ∀ submission, waiting = some submission →
      submission.height ≤ state.miningInfo.height) :
    Invariant { state with calls := Function.update state.calls call waiting } := by
  refine ⟨inv.best, inv.beaten, inv.below, inv.compared, ?_, inv.tasks⟩
  intro other submission found
  change Function.update state.calls call waiting other = some submission at found
  by_cases same : other = call
  · subst same
    rw [Function.update_self] at found
    exact bounded submission found
  · rw [Function.update_of_ne same] at found
    exact inv.calls other submission found

theorem Invariant.record (inv : Invariant state)
    (current : submission.height = state.miningInfo.height)
    (better : submission.quality < state.bestQuality) :
    Invariant { state with
      bestQuality := submission.quality
      recorded := submission :: state.recorded } := by
  have best := inv.best
  unfold BestRecorded at best
  constructor
  · show submission.quality = leastQuality state.miningInfo.height (submission :: state.recorded)
    rw [leastQuality, if_pos current, ← best, Nat.min_eq_left (Nat.le_of_lt better)]
  · intro other listed same
    exact Nat.le_trans (Nat.le_of_lt better) (inv.beaten other listed same)
  · intro other listed
    rcases List.mem_cons.mp listed with rfl | earlier
    · apply Nat.lt_of_lt_of_le better
      rw [best]
      exact leastQuality_le_max
    · exact inv.below other earlier
  · intro other listed
    rcases List.mem_cons.mp listed with rfl | earlier
    · exact Nat.le_of_eq current
    · exact inv.compared other earlier
  · exact inv.calls
  · intro task forging found
    exact List.mem_cons_of_mem _ (inv.tasks task forging found)

/-- The lock of a call. -/
theorem Invariant.compare (inv : Invariant state)
    (bounded : submission.height ≤ state.miningInfo.height)
    (fine : submission.quality < state.bestQuality →
      submission.height = state.miningInfo.height) (task : Nat) (latest : Bool) :
    Invariant (state.compare submission task latest) := by
  unfold State.compare
  split
  · rename_i better
    have recorded := inv.record (fine better) better
    cases latest with
    | false => exact recorded
    | true =>
      have tripped : Invariant { state with
          bestQuality := submission.quality
          recorded := submission :: state.recorded
          tripwire := some task
          tasks := interrupt state.tripwire state.tasks } := by
        apply recorded.setTasks (some task)
        intro other forging found
        obtain ⟨earlier, present, same⟩ := interrupt_submission found
        rw [← same]
        exact recorded.tasks other earlier present
      apply tripped.setTask task
      intro changed spawned
      cases spawned
      exact List.mem_cons_self
  · rename_i beaten
    refine ⟨inv.best, ?_, inv.below, ?_, inv.calls, inv.tasks⟩
    · intro other listed same
      rcases List.mem_cons.mp listed with rfl | earlier
      · exact Nat.not_lt.mp beaten
      · exact inv.beaten other earlier same
    · intro other listed
      rcases List.mem_append.mp listed with recorded | beaten
      · exact inv.compared other (List.mem_append_left _ recorded)
      · rcases List.mem_cons.mp beaten with rfl | earlier
        · exact bounded
        · exact inv.compared other (List.mem_append_right _ earlier)

/-- The lock of a task. -/
theorem Invariant.forge (inv : Invariant state) {elapsed : Option (Nat × Nat)}
    {blockHash : List Char}
    (fine : if submission.height = state.miningInfo.height then
        submission.quality = state.bestQuality ∧ Forgeable config submission elapsed
      else state.bestQuality = maxQuality) :
    Invariant (state.forge config submission elapsed blockHash) := by
  unfold State.forge
  by_cases current : submission.height = state.miningInfo.height
  · rw [if_pos current] at fine
    obtain ⟨newMiningInfo, block, forged, height, -⟩ :=
      @forgeBlock_forged config state.miningInfo submission elapsed blockHash current fine.2
    rw [forged]
    have fresh : ∀ other ∈ state.recorded ++ state.beaten, other.height ≠ newMiningInfo.height := by
      intro other listed
      have bound := inv.compared other listed
      omega
    refine ⟨?_, ?_, inv.below, ?_, ?_, inv.tasks⟩
    · apply Eq.symm
      apply leastQuality_none
      intro other listed
      exact fresh other (List.mem_append_left _ listed)
    · intro other listed same
      exact absurd same (fresh other (List.mem_append_right _ listed))
    · intro other listed
      have bound := inv.compared other listed
      show other.height ≤ newMiningInfo.height
      omega
    · intro call waiting found
      have bound := inv.calls call waiting found
      show waiting.height ≤ newMiningInfo.height
      omega
  · rw [if_neg current] at fine
    rw [forgeBlock_refused fun both => current both.1]
    have same : { state with bestQuality := maxQuality } = state := by
      rw [← fine]
    rw [same]
    exact inv

theorem invariant_initially (initial : (system config).initial state) : Invariant state := by
  obtain ⟨best, -, calls, tasks, recorded, beaten⟩ := initial
  constructor
  · unfold BestRecorded
    rw [best, recorded]
    rfl
  · rw [beaten]
    nofun
  · rw [recorded]
    nofun
  · rw [recorded, beaten]
    nofun
  · intro call submission found
    rw [calls] at found
    cases found
  · intro task forging found
    rw [tasks] at found
    cases found

/-- Fine steps keep the invariant. -/
theorem step_invariant {label : Label} {after : State} (inv : Invariant state)
    (fine : Fine config state label) (taken : step config state label = some after) :
    Invariant after := by
  cases label with
  | getMiningInfo call params =>
    obtain rfl | ⟨submission, checked, rfl⟩ := step_getMiningInfo taken
    · exact inv
    · apply inv.setCall call
      intro waiting found
      cases found
      exact Nat.le_of_eq (checkNonce_height checked)
  | compare call task latest =>
    obtain ⟨submission, waiting, rfl⟩ := step_compare taken
    have idle := @Invariant.setCall state inv call none nofun
    apply idle.compare
    · exact inv.calls call submission waiting
    · exact fine submission waiting
  | wake task =>
    obtain ⟨sleeping, present, rfl⟩ := step_wake taken
    apply inv.setTask task
    intro changed woken
    cases woken
    exact inv.tasks task sleeping present
  | interrupted task =>
    obtain rfl := step_interrupted taken
    exact inv.setTask task nofun
  | forge task elapsed blockHash =>
    obtain ⟨awake, present, rfl⟩ := step_forge taken
    have ended := @Invariant.setTask state inv task none nofun
    apply ended.forge
    exact fine awake present

theorem reachable_invariant (reached : Reachable (system config) (Fine config) state) :
    Invariant state := by
  apply Reachable.invariant Invariant ?_ ?_ reached
  · intro start initial
    exact invariant_initially initial
  · intro before label after inv fine taken
    exact step_invariant inv fine taken

/-- Only a task under the lock advances the chain. -/
theorem step_height {label : Label} {after : State}
    (taken : step config state label = some after)
    (advanced : after.miningInfo.height ≠ state.miningInfo.height) :
    ∃ task elapsed blockHash, label = .forge task elapsed blockHash := by
  cases label with
  | getMiningInfo call params =>
    obtain rfl | ⟨submission, checked, rfl⟩ := step_getMiningInfo taken <;>
      exact absurd rfl advanced
  | compare call task latest =>
    obtain ⟨submission, waiting, rfl⟩ := step_compare taken
    rw [State.compare_miningInfo] at advanced
    exact absurd rfl advanced
  | wake task =>
    obtain ⟨sleeping, present, rfl⟩ := step_wake taken
    exact absurd rfl advanced
  | interrupted task =>
    obtain rfl := step_interrupted taken
    exact absurd rfl advanced
  | forge task elapsed blockHash => exact ⟨task, elapsed, blockHash, rfl⟩

/-- A fine step forges the best submission, if it forges any. -/
theorem step_forgesBest {label : Label} {after : State} (inv : Invariant state)
    (fine : Fine config state label) (taken : step config state label = some after) :
    ForgesBest state label after := by
  intro advanced
  obtain ⟨task, elapsed, blockHash, rfl⟩ := step_height taken advanced
  obtain ⟨awake, present, rfl⟩ := step_forge taken
  have met := fine awake present
  unfold State.forge at advanced ⊢
  by_cases current : awake.submission.height = state.miningInfo.height
  · rw [if_pos current] at met
    obtain ⟨newMiningInfo, block, forged, height, generator, seed, nonce⟩ :=
      @forgeBlock_forged config state.miningInfo awake.submission elapsed blockHash current met.2
    simp only [forged]
    have found : (Label.forge task elapsed blockHash).forges state = some awake.submission := by
      simp only [Label.forges, present, Option.map_some]
    refine ⟨height, awake.submission, block, found, rfl, generator, seed, nonce,
      inv.tasks task awake present, current, ?_⟩
    intro other listed same
    rw [met.1]
    rcases List.mem_append.mp listed with recorded | beaten
    · rw [inv.best]
      exact leastQuality_le recorded same
    · exact inv.beaten other beaten same
  · simp only [forgeBlock_refused fun both => current both.1] at advanced
    exact absurd rfl advanced

/-- A step that is not fine spoils the best quality or forges another submission. -/
theorem fine_of_kept {label : Label} {after : State} (inv : Invariant state)
    (taken : step config state label = some after) (best : BestRecorded after)
    (forges : ForgesBest state label after) : Fine config state label := by
  cases label with
  | getMiningInfo call params => trivial
  | wake task => trivial
  | interrupted task => trivial
  | compare call task latest =>
    intro submission waiting better
    obtain ⟨same, waiting', rfl⟩ := step_compare taken
    rw [waiting] at waiting'
    cases waiting'
    -- A submission for another height would lower the best quality without counting for it.
    by_contra stale
    have lowered : submission.quality = leastQuality state.miningInfo.height state.recorded := by
      have compared := @State.compare_bestQuality
        { state with calls := Function.update state.calls call none } submission task latest better
      have recorded := @State.compare_recorded
        { state with calls := Function.update state.calls call none } submission task latest better
      unfold BestRecorded at best
      rw [State.compare_miningInfo, compared, recorded, leastQuality, if_neg stale] at best
      exact best
    have kept := inv.best
    unfold BestRecorded at kept
    omega
  | forge task elapsed blockHash =>
    intro awake present
    obtain ⟨same, present', rfl⟩ := step_forge taken
    rw [present] at present'
    cases present'
    have recorded := inv.tasks task awake present
    have kept := inv.best
    unfold BestRecorded at kept
    by_cases through : awake.submission.height = state.miningInfo.height ∧
        Forgeable config awake.submission elapsed
    · rw [if_pos through.1]
      refine ⟨?_, through.2⟩
      obtain ⟨newMiningInfo, block, forged, height, -⟩ :=
        @forgeBlock_forged config state.miningInfo awake.submission elapsed blockHash through.1
          through.2
      unfold State.forge at forges
      simp only [forged] at forges
      obtain ⟨-, submission, block', found, -, -, -, -, -, -, least⟩ := forges (by
        show newMiningInfo.height ≠ state.miningInfo.height
        omega)
      simp only [Label.forges, present, Option.map_some, Option.some.injEq] at found
      subst found
      have bound := leastQuality_le recorded through.1
      have below := inv.below _ recorded
      obtain ⟨other, listed, current, attained⟩ :=
        leastQuality_attained (Nat.ne_of_lt (Nat.lt_of_le_of_lt bound below))
      have beats := least other (List.mem_append_left _ listed) current
      omega
    · -- The reset leaves what is recorded for the current height behind.
      unfold State.forge BestRecorded at best
      simp only [forgeBlock_refused through] at best
      have unrecorded : state.bestQuality = maxQuality := kept.trans best.symm
      by_cases current : awake.submission.height = state.miningInfo.height
      · have bound := leastQuality_le recorded current
        have below := inv.below _ recorded
        omega
      · rw [if_neg current]
        exact unrecorded

end invariant

/-- In every run of fine steps the best quality is the least one recorded for the current height,
and every step that follows keeps this and forges the best submission exactly when it is
fine. -/
theorem best_nonce_forged_iff {config : PoCXConfig} {state : State}
    (reached : Reachable (system config) (Fine config) state) :
    BestRecorded state ∧ ∀ label after, (system config).step state label = some after →
      (BestRecorded after ∧ ForgesBest state label after ↔ Fine config state label) := by
  have inv := reachable_invariant reached
  refine ⟨inv.best, fun label after taken => ⟨?_, ?_⟩⟩
  · rintro ⟨best, forges⟩
    exact fine_of_kept inv taken best forges
  · intro fine
    exact ⟨(step_invariant inv fine taken).best, step_forgesBest inv fine taken⟩

section mocknet

def accountId : List Char := (List.replicate 20 ['4', '2']).flatten

def seedText : List Char := List.replicate 64 '1'

/-- Nonce 1 has the quality 5, nonce 2 the quality 4, and so on. -/
def mocknet : PoCXConfig where
  networkId := .bech32 "pocx".toList
  blockTimeSeconds := 120
  minimumCompressionLevel := 1
  targetCompressionLevel := 1
  minBaseTarget := fun baseTarget => baseTarget / 2
  maxBaseTarget := fun baseTarget => 2 * baseTarget
  qualityAdjToTime := fun quality blockTime => if quality = 0 then 0 else 2 * blockTime
  bs58 := Address.sampleBs58
  segwit := Address.sampleSegwit
  hexEncode := fun bytes =>
    bytes.flatMap fun byte => [Nat.digitChar (byte.toNat / 16), Nat.digitChar (byte.toNat % 16)]
  hexDecode := fun text =>
    if text = accountId then some Address.program
    else if text = seedText then some (List.replicate 32 0x11)
    else none
  toLowercase := List.map Char.toLower
  calculateBestQualityInRange := fun _ _ nonce _ _ _ _ => some (6 - nonce)
  calculateNextGenerationSignature := fun _ publicKey => publicKey.take 32

def genesis : State where
  miningInfo :=
    { generationSignature := List.replicate 32 0
      baseTarget := genesisBaseTarget 120
      height := 0
      blockHash := ['0']
      targetQuality := maxQuality }
  blocks :=
    [{ height := 0
       baseTarget := genesisBaseTarget 120
       generationSignature := mocknet.hexEncode (List.replicate 32 0)
       generator := []
       seed := []
       nonce := 0
       pocTime := 120 }]
  bestQuality := maxQuality
  tripwire := none
  calls := fun _ => none
  tasks := fun _ => none
  recorded := []
  beaten := []

/-- What a miner submits that works on the chain's block. -/
def submit (height nonce : Nat) (generationSignature : List UInt8) (blockHash : List Char) :
    SubmitNonceParams where
  blockHash := blockHash
  height := height
  generationSignature := mocknet.hexEncode generationSignature
  accountId := accountId
  seed := seedText
  nonce := nonce

/-- Two calls read the mining info. The task of the first wakes up, and behind it the second one,
which is better, finds no task to interrupt that still sleeps. -/
def twoCalls : List Label :=
  [.getMiningInfo 0 (submit 0 1 (List.replicate 32 0) ['0']),
    .getMiningInfo 1 (submit 0 2 (List.replicate 32 0) ['0']),
    .compare 0 0 true, .wake 0, .compare 1 1 true]

/-- The task of nonce 1 gets the lock. -/
def firstForges : Label := .forge 0 (some (60, 1)) ['1']

/-- A nonce is recorded for the new height, and the task of the second call finds its height
gone. -/
def thirdCall : List Label :=
  [.getMiningInfo 0 (submit 1 3 (Address.program ++ List.replicate 12 0) ['1']),
    .wake 1, .compare 0 0 true, .forge 1 none ['2']]

theorem genesis_initial : (system mocknet).initial genesis :=
  ⟨rfl, rfl, fun _ => rfl, fun _ => rfl, rfl, rfl⟩

/-- The chain advances with a nonce although a better one was recorded for its height, and the best
quality is reset while a nonce is recorded for the new height. -/
theorem worse_nonce_forged :
    (∃ state after, Reachable (system mocknet) always state ∧
      (system mocknet).step state firstForges = some after ∧
      ¬ForgesBest state firstForges after) ∧
    ∃ state, Reachable (system mocknet) always state ∧ ¬BestRecorded state := by
  constructor
  · refine ⟨_, _, Reachable.run twoCalls (.start genesis_initial) rfl, rfl, ?_⟩
    intro kept
    obtain ⟨-, submission, block, found, -, -, -, -, -, -, least⟩ := kept (by decide)
    have five : some 5 = some submission.quality := congrArg (Option.map Submission.quality) found
    have four : submission.quality ≤ 4 :=
      least _ (List.mem_append_left _ List.mem_cons_self) rfl
    rw [← Option.some.inj five] at four
    exact absurd four (by decide)
  · refine ⟨_, Reachable.run (twoCalls ++ firstForges :: thirdCall) (.start genesis_initial) rfl, ?_⟩
    unfold BestRecorded
    decide

/-- The task of nonce 2 gets the lock. -/
def secondForges : Label := .forge 1 (some (60, 1)) ['1']

/-- A better nonce interrupts the task of the first, and is forged. -/
theorem better_nonce_forged :
    ∃ state after, Reachable (system mocknet) (Fine mocknet) state ∧
      state.recorded.map Submission.nonce = [2, 1] ∧ state.tasks 0 = none ∧
      (system mocknet).step state secondForges = some after ∧
      after.miningInfo.height = state.miningInfo.height + 1 ∧
      after.blocks.head?.map Block.nonce = some 2 ∧
      BestRecorded after ∧ ForgesBest state secondForges after := by
  have started : Reachable (system mocknet) (Fine mocknet) genesis := .start genesis_initial
  have asked := @Reachable.next _ _ (system mocknet) (Fine mocknet) _ _
    (.getMiningInfo 0 (submit 0 1 (List.replicate 32 0) ['0'])) started trivial rfl
  have compared := @Reachable.next _ _ (system mocknet) (Fine mocknet) _ _
    (.compare 0 0 true) asked (fun submission waiting _ => by cases waiting; rfl) rfl
  have askedAgain := @Reachable.next _ _ (system mocknet) (Fine mocknet) _ _
    (.getMiningInfo 0 (submit 0 2 (List.replicate 32 0) ['0'])) compared trivial rfl
  have replaced := @Reachable.next _ _ (system mocknet) (Fine mocknet) _ _
    (.compare 0 1 true) askedAgain (fun submission waiting _ => by cases waiting; rfl) rfl
  have ended := @Reachable.next _ _ (system mocknet) (Fine mocknet) _ _
    (.interrupted 0) replaced trivial rfl
  have woken := @Reachable.next _ _ (system mocknet) (Fine mocknet) _ _
    (.wake 1) ended trivial rfl
  obtain ⟨-, keeps⟩ := best_nonce_forged_iff woken
  have kept := (keeps secondForges _ rfl).mpr (by
    intro awake found
    cases found
    exact ⟨rfl, rfl, _, rfl⟩)
  exact ⟨_, _, woken, rfl, rfl, rfl, rfl, rfl, kept⟩

end mocknet

end Pocx.Mockchain
