import Pocx.Aggregator.BlockFilter
import Pocx.Lib.Transition

set_option autoImplicit false

namespace Pocx.BlockFilter

open Panicking (Panic)
open Protocol (SubmitNonceParams)
open Transition (System Reachable always)

/-- One call of `submit`: whether the submission was sent, and what was returned. -/
structure Call where
  rawQuality : UInt64
  forwarded : Bool
  answer : Except Panic Bool
deriving DecidableEq

/-- The calls for each block since it was last inserted. -/
abbrev Stays : Type := String → List Call

def Stays.after (stays : Stays) (before after : AccountFilter) (blockHash : String) (call : Call) :
    Stays := fun hash =>
  if hash ∈ after.blockHashes then
    if hash = blockHash then (if hash ∈ before.blockHashes then stays hash else []) ++ [call]
    else stays hash
  else []

structure State where
  handler : SubmissionHandler
  stays : String → Stays

/-- A submission arrives, or the sending task ends. -/
inductive Event
  | submit (levels : LevelFilter) (params : SubmitNonceParams)
  | ended

def SubmissionHandler.ended : SubmissionHandler → SubmissionHandler
  | .pool queue => .pool { queue with txSubmit := { queue.txSubmit with alive := false } }
  | .wallet queue => .wallet { queue with txSubmit := { queue.txSubmit with alive := false } }

/-- Whether the submissions of two accounts meet the same filter. -/
def SubmissionHandler.shares (accountId other : String) : SubmissionHandler → Bool
  | .pool _ => accountId = other
  | .wallet _ => true

/-- What is remembered of the call of `submit` that is about to be made. -/
def SubmissionHandler.call (levels : LevelFilter) (params : SubmitNonceParams)
    (handler : SubmissionHandler) : Call where
  rawQuality := params.rawQuality
  forwarded := (handler.submit levels params).1.txSubmit.sent = handler.txSubmit.sent ++ [params]
  answer := (handler.submit levels params).2

def State.step (state : State) : Event → State
  | .submit levels params =>
    let handler := (state.handler.submit levels params).1
    { handler
      stays := fun accountId =>
        if state.handler.shares accountId params.accountId then
          (state.stays accountId).after (state.handler.filter accountId) (handler.filter accountId)
            params.blockHash (state.handler.call levels params)
        else state.stays accountId }
  | .ended => { state with handler := state.handler.ended }

/-- The queues as they are created. -/
inductive SubmissionHandler.New : SubmissionHandler → Prop
  | pool : New (.pool ⟨fun _ => none, ⟨[], true⟩⟩)
  | wallet : New (.wallet ⟨.empty, ⟨[], true⟩⟩)

def system : System State Event where
  initial := fun state => state.handler.New ∧ state.stays = fun _ _ => []
  step := fun state event => some (state.step event)

/-- The queue and the map of a filter are in step. -/
structure AccountFilter.WellFormed (filter : AccountFilter) : Prop where
  distinct : filter.blockHashes.Nodup
  few : filter.blockHashes.length ≤ maxBlocks
  keys : ∀ hash, hash ∈ filter.blockHashes ↔ ∃ best, filter.bestQualities hash = some best

def Least (best : UInt64) (calls : List Call) : Prop :=
  (∃ call ∈ calls, call.rawQuality = best) ∧ ∀ call ∈ calls, best ≤ call.rawQuality

/-- What was forwarded during a stay improved each time. -/
def Decreasing (calls : List Call) : Prop :=
  (calls.filter Call.forwarded).Pairwise fun earlier later => later.rawQuality < earlier.rawQuality

/-- A submission is turned away only after one at least as good was forwarded. -/
def Fair (calls : List Call) : Prop :=
  ∀ earlier call later, calls = earlier ++ call :: later → call.answer = .ok false →
    ∃ better ∈ earlier, better.forwarded = true ∧ better.rawQuality ≤ call.rawQuality

/-- What a block's stored quality has to do with the calls of its stay. -/
structure Stay (stored : Option UInt64) (calls : List Call) : Prop where
  least : ∀ best, stored = some best → Least best calls
  decreasing : Decreasing calls

structure Kept (filter : AccountFilter) (stays : Stays) : Prop where
  wellFormed : filter.WellFormed
  stay : ∀ hash, Stay (filter.bestQualities hash) (stays hash)

theorem Least.worse {best : UInt64} {calls : List Call} (least : Least best calls) {call : Call}
    (worse : best ≤ call.rawQuality) : Least best (calls ++ [call]) := by
  obtain ⟨⟨first, found, equal⟩, below⟩ := least
  refine ⟨⟨first, List.mem_append_left _ found, equal⟩, ?_⟩
  rw [List.forall_mem_append, List.forall_mem_singleton]
  exact ⟨below, worse⟩

theorem Least.better {best : UInt64} {calls : List Call}
    (below : ∀ call ∈ calls, best ≤ call.rawQuality) {call : Call}
    (raw : call.rawQuality = best) : Least best (calls ++ [call]) := by
  refine ⟨⟨call, List.mem_append_right _ (List.mem_singleton_self call), raw⟩, ?_⟩
  rw [List.forall_mem_append, List.forall_mem_singleton, raw]
  exact ⟨below, UInt64.le_refl best⟩

theorem Decreasing.silent {calls : List Call} (decreasing : Decreasing calls) {call : Call}
    (silent : call.forwarded = false) : Decreasing (calls ++ [call]) := by
  rw [Decreasing, List.filter_append]
  simpa [silent, Decreasing] using decreasing

theorem Decreasing.better {calls : List Call} (decreasing : Decreasing calls) {call : Call}
    (better : ∀ earlier ∈ calls, call.rawQuality < earlier.rawQuality) :
    Decreasing (calls ++ [call]) := by
  rw [Decreasing, List.filter_append, List.pairwise_append]
  refine ⟨decreasing, (List.pairwise_singleton _ call).sublist List.filter_sublist, ?_⟩
  intro earlier found later last
  obtain rfl := List.mem_singleton.mp (List.mem_filter.mp last).1
  exact better earlier (List.mem_filter.mp found).1

/-- The stored quality was forwarded. -/
structure Delivered (stored : Option UInt64) (calls : List Call) : Prop where
  sent : ∀ best, stored = some best →
    ∃ call ∈ calls, call.forwarded = true ∧ call.rawQuality = best
  fair : Fair calls

theorem Stay.none : Stay none [] := ⟨(fun _ stored => nomatch stored), List.Pairwise.nil⟩

theorem Stay.worse {best : UInt64} {calls : List Call} (stay : Stay (some best) calls) {call : Call}
    (worse : best ≤ call.rawQuality) (silent : call.forwarded = false) :
    Stay (some best) (calls ++ [call]) := by
  refine ⟨?_, stay.decreasing.silent silent⟩
  intro _ stored
  obtain rfl := Option.some.inj stored
  exact (stay.least best rfl).worse worse

theorem Stay.better {best : UInt64} {calls : List Call} (stay : Stay (some best) calls) {call : Call}
    (better : call.rawQuality < best) : Stay (some call.rawQuality) (calls ++ [call]) := by
  have above (earlier : Call) (found : earlier ∈ calls) : call.rawQuality < earlier.rawQuality :=
    UInt64.lt_of_lt_of_le better ((stay.least best rfl).2 earlier found)
  refine ⟨?_, stay.decreasing.better above⟩
  intro _ stored
  obtain rfl := Option.some.inj stored
  exact Least.better (fun earlier found => UInt64.le_of_lt (above earlier found)) rfl

theorem Stay.first (call : Call) : Stay (some call.rawQuality) [call] := by
  refine ⟨?_, List.Pairwise.sublist List.filter_sublist (List.pairwise_singleton _ call)⟩
  intro _ stored
  obtain rfl := Option.some.inj stored
  exact @Least.better _ [] (List.forall_mem_nil _) _ rfl

theorem Fair.append {calls : List Call} (fair : Fair calls) {call : Call}
    (justified : call.answer = .ok false →
      ∃ better ∈ calls, better.forwarded = true ∧ better.rawQuality ≤ call.rawQuality) :
    Fair (calls ++ [call]) := by
  intro earlier turned later split refused
  rcases List.eq_nil_or_concat later with rfl | ⟨rest, last, rfl⟩
  · obtain ⟨rfl, same⟩ := List.append_inj' split rfl
    obtain rfl := List.singleton_inj.mp same
    exact justified refused
  · rw [List.concat_eq_append, ← List.cons_append, ← List.append_assoc] at split
    exact fair earlier turned rest (List.append_inj' split rfl).1 refused

theorem Delivered.none : Delivered none [] := by
  refine ⟨(fun _ stored => nomatch stored), ?_⟩
  intro earlier call later split
  rw [List.nil_eq_append_iff] at split
  cases split.2

theorem Delivered.worse {best : UInt64} {calls : List Call} (delivered : Delivered (some best) calls)
    {call : Call} (worse : best ≤ call.rawQuality) : Delivered (some best) (calls ++ [call]) := by
  obtain ⟨first, found, forwarded, equal⟩ := delivered.sent best rfl
  refine ⟨?_, ?_⟩
  · intro _ stored
    obtain rfl := Option.some.inj stored
    exact ⟨first, List.mem_append_left _ found, forwarded, equal⟩
  · apply delivered.fair.append
    intro _
    rw [← equal] at worse
    exact ⟨first, found, forwarded, worse⟩

theorem Delivered.sends {calls : List Call} (fair : Fair calls) {call : Call}
    (forwarded : call.forwarded = true) (taken : call.answer ≠ .ok false) :
    Delivered (some call.rawQuality) (calls ++ [call]) := by
  refine ⟨?_, fair.append fun refused => absurd refused taken⟩
  intro _ stored
  exact ⟨call, List.mem_append_right _ (List.mem_singleton_self call), forwarded,
    Option.some.inj stored⟩

section submit

variable {lines : LogLines} {levels : LevelFilter} {blockHash : String} {rawQuality : UInt64}
  {filter : AccountFilter}

namespace AccountFilter.WellFormed

/-- After `makeRoom` there is room, and the blocks that are left have not changed. -/
theorem makeRoom (formed : filter.WellFormed) :
    (filter.makeRoom lines levels).1.WellFormed ∧
      (filter.makeRoom lines levels).1.blockHashes.length < maxBlocks ∧
      ∀ hash ∈ (filter.makeRoom lines levels).1.blockHashes, hash ∈ filter.blockHashes ∧
        (filter.makeRoom lines levels).1.bestQualities hash = filter.bestQualities hash := by
  obtain ⟨distinct, few, keys⟩ := formed
  rw [AccountFilter.makeRoom]
  split
  · rename_i full
    cases listed : filter.blockHashes with
    | nil =>
      rw [listed] at full
      exact absurd full (by decide)
    | cons oldestHash rest =>
      rw [listed] at distinct few keys
      obtain ⟨gone, distinct⟩ := List.nodup_cons.mp distinct
      have elsewhere (hash : String) (found : hash ∈ rest) : hash ≠ oldestHash := by
        rintro rfl
        exact gone found
      refine ⟨⟨distinct, Nat.le_of_succ_le few, ?_⟩, few, ?_⟩
      · intro hash
        dsimp only
        by_cases same : hash = oldestHash
        · rw [same, Function.update_self]
          simpa using gone
        · rw [Function.update_of_ne same, ← keys hash, List.mem_cons, or_iff_right same]
      · intro hash found
        exact ⟨List.mem_cons_of_mem _ found, Function.update_of_ne (elsewhere hash found) _ _⟩
  · rename_i room
    exact ⟨⟨distinct, few, keys⟩, Nat.lt_of_not_le room, fun hash found => ⟨found, rfl⟩⟩

theorem update (formed : filter.WellFormed) (known : blockHash ∈ filter.blockHashes) :
    ({ filter with
        bestQualities := Function.update filter.bestQualities blockHash (some rawQuality) } :
      AccountFilter).WellFormed := by
  refine ⟨formed.distinct, formed.few, ?_⟩
  intro hash
  dsimp only
  by_cases same : hash = blockHash
  · rw [same, Function.update_self]
    exact ⟨fun _ => ⟨rawQuality, rfl⟩, fun _ => known⟩
  · rw [Function.update_of_ne same]
    exact formed.keys hash

theorem insert (formed : filter.WellFormed) (room : filter.blockHashes.length < maxBlocks)
    (unknown : blockHash ∉ filter.blockHashes) :
    ({ blockHashes := filter.blockHashes ++ [blockHash]
       bestQualities := Function.update filter.bestQualities blockHash (some rawQuality) } :
      AccountFilter).WellFormed := by
  refine ⟨?_, ?_, ?_⟩
  · rw [List.nodup_append]
    refine ⟨formed.distinct, List.pairwise_singleton _ blockHash, ?_⟩
    rintro hash found other last rfl
    rw [List.mem_singleton.mp last] at found
    exact unknown found
  · rw [List.length_append]
    exact room
  · intro hash
    dsimp only
    rw [List.mem_append, List.mem_singleton]
    by_cases same : hash = blockHash
    · rw [same, Function.update_self]
      exact ⟨fun _ => ⟨rawQuality, rfl⟩, fun _ => .inr rfl⟩
    · rw [Function.update_of_ne same, or_iff_left same]
      exact formed.keys hash

theorem unknown_iff (formed : filter.WellFormed) :
    blockHash ∉ filter.blockHashes ↔ filter.bestQualities blockHash = none := by
  rw [formed.keys, Option.eq_none_iff_forall_ne_some, not_exists]

theorem submit (formed : filter.WellFormed) :
    (filter.submit lines levels blockHash rawQuality).1.WellFormed := by
  rcases filter.submit_cases lines levels blockHash rawQuality with
    ⟨best, known, better, submitted⟩ | ⟨best, known, better, submitted⟩ |
    ⟨unknown, panic, stopped, submitted⟩ | ⟨unknown, room, submitted⟩
  · rw [submitted]
    exact formed
  · rw [submitted]
    exact formed.update ((formed.keys blockHash).mpr ⟨best, known⟩)
  · rw [submitted]
    exact formed.makeRoom.1
  · obtain ⟨left, free, old⟩ := @makeRoom lines levels filter formed
    rw [submitted]
    exact left.insert free fun found => formed.unknown_iff.mpr unknown (old blockHash found).1

/-- The blocks that stay in the filter have not changed. -/
theorem submit_others (formed : filter.WellFormed) {hash : String} (other : hash ≠ blockHash)
    (found : hash ∈ (filter.submit lines levels blockHash rawQuality).1.blockHashes) :
    (filter.submit lines levels blockHash rawQuality).1.bestQualities hash =
      filter.bestQualities hash := by
  rcases filter.submit_cases lines levels blockHash rawQuality with
    ⟨best, known, better, submitted⟩ | ⟨best, known, better, submitted⟩ |
    ⟨unknown, panic, stopped, submitted⟩ | ⟨unknown, room, submitted⟩
  · rw [submitted]
  · rw [submitted]
    exact Function.update_of_ne other _ _
  · rw [submitted] at found ⊢
    exact (formed.makeRoom.2.2 hash found).2
  · rw [submitted] at found ⊢
    dsimp only at found ⊢
    rw [List.mem_append, List.mem_singleton, or_iff_left other] at found
    rw [Function.update_of_ne other]
    exact (formed.makeRoom.2.2 hash found).2

end AccountFilter.WellFormed

/-- A property of the stored quality and the calls of a stay holds of every block after a call, if
it survives each of the branches of `submit`. -/
theorem Stays.after_forall {property : Option UInt64 → List Call → Prop} {stays : Stays}
    {call : Call} (formed : filter.WellFormed) (nothing : property none [])
    (before : ∀ hash, property (filter.bestQualities hash) (stays hash))
    (worse : ∀ best, property (some best) (stays blockHash) → best ≤ rawQuality →
      (filter.submit lines levels blockHash rawQuality).2 =
        (lines.filtered.write levels).map (fun _ => false) →
      property (some best) (stays blockHash ++ [call]))
    (better : ∀ best, filter.bestQualities blockHash = some best →
      property (some best) (stays blockHash) → rawQuality < best →
      (filter.submit lines levels blockHash rawQuality).2 =
        (lines.updated.write levels).map (fun _ => true) →
      property (some rawQuality) (stays blockHash ++ [call]))
    (new : filter.bestQualities blockHash = none → (filter.makeRoom lines levels).2 = .ok () →
      (filter.submit lines levels blockHash rawQuality).2 =
        (lines.added.write levels).map (fun _ => true) →
      property (some rawQuality) [call]) (hash : String) :
    property ((filter.submit lines levels blockHash rawQuality).1.bestQualities hash)
      (stays.after filter (filter.submit lines levels blockHash rawQuality).1 blockHash call
        hash) := by
  have formed' : (filter.submit lines levels blockHash rawQuality).1.WellFormed := formed.submit
  rw [Stays.after]
  by_cases found : hash ∈ (filter.submit lines levels blockHash rawQuality).1.blockHashes
  swap
  · rw [if_neg found, formed'.unknown_iff.mp found]
    exact nothing
  rw [if_pos found]
  by_cases same : hash = blockHash
  swap
  · rw [if_neg same, formed.submit_others same found]
    exact before hash
  subst same
  rw [if_pos rfl]
  rcases filter.submit_cases lines levels hash rawQuality with
    ⟨best, known, least, submitted⟩ | ⟨best, known, least, submitted⟩ |
    ⟨unknown, panic, stopped, submitted⟩ | ⟨unknown, room, submitted⟩
  · have kept := before hash
    rw [known] at kept
    rw [if_pos ((formed.keys hash).mpr ⟨best, known⟩), submitted, known]
    exact worse best kept least (by rw [submitted])
  · have kept := before hash
    rw [known] at kept
    rw [if_pos ((formed.keys hash).mpr ⟨best, known⟩), submitted]
    dsimp only
    rw [Function.update_self]
    exact better best known kept least (by rw [submitted])
  · rw [submitted] at found
    exact absurd (formed.makeRoom.2.2 hash found).1 (formed.unknown_iff.mpr unknown)
  · rw [if_neg (formed.unknown_iff.mpr unknown), submitted]
    dsimp only
    rw [Function.update_self]
    exact new unknown room (by rw [submitted])

end submit

section call

variable {levels : LevelFilter} {params : SubmitNonceParams} {handler : SubmissionHandler}

theorem SubmissionHandler.call_forwarded :
    (handler.call levels params).forwarded = true ↔
      (handler.filtered levels params).2 = .ok true ∧ handler.txSubmit.alive = true := by
  rw [SubmissionHandler.call, decide_eq_true_iff, (handler.submit_eq levels params).2.1]
  rcases (handler.filtered levels params).2 with panic | improved
  · simp [Channel.forward]
  · cases improved <;> cases alive : handler.txSubmit.alive <;>
      simp [Channel.forward, Channel.unboundedSend, alive]

theorem SubmissionHandler.call_refused (refused : (handler.call levels params).answer = .ok false) :
    (handler.filtered levels params).2 = .ok false ∨
      (handler.filtered levels params).2 = .ok true ∧ handler.txSubmit.alive = false := by
  rw [SubmissionHandler.call, (handler.submit_eq levels params).2.2] at refused
  generalize (handler.filtered levels params).2 = outcome at refused ⊢
  rcases outcome with panic | improved
  · cases refused
  · cases improved
    · exact .inl rfl
    · cases alive : handler.txSubmit.alive
      · exact .inr ⟨rfl, rfl⟩
      · rw [Channel.forward, Channel.unboundedSend, if_pos alive] at refused
        cases refused

/-- A submission changes the filters of its own account as `submit` does. -/
theorem SubmissionHandler.filter_shared {accountId : String}
    (shared : handler.shares accountId params.accountId = true) :
    handler.filter accountId = handler.filter params.accountId ∧
      (handler.submit levels params).1.filter accountId = (handler.filtered levels params).1 := by
  rw [← (handler.submit_eq levels params).1]
  cases handler with
  | pool queue =>
    obtain rfl := of_decide_eq_true shared
    exact ⟨rfl, rfl⟩
  | wallet queue => exact ⟨rfl, rfl⟩

theorem SubmissionHandler.filter_apart {accountId : String}
    (apart : handler.shares accountId params.accountId = false) :
    (handler.submit levels params).1.filter accountId = handler.filter accountId := by
  cases handler with
  | pool queue =>
    rw [SubmissionHandler.submit, SubmissionQueue.submit]
    dsimp only [SubmissionHandler.filter, Prod.map]
    rw [Function.update_of_ne (of_decide_eq_false apart)]
  | wallet queue => cases apart

end call

/-- What `State.step` keeps of every filter, from the branches of `submit`. -/
theorem State.step_forall {property : AccountFilter → Stays → Prop} {state : State}
    (before : ∀ accountId, property (state.handler.filter accountId) (state.stays accountId))
    (event : Event)
    (submitted : ∀ levels params, event = .submit levels params → ∀ stays,
      property (state.handler.filter params.accountId) stays →
      property (state.handler.filtered levels params).1
        (stays.after (state.handler.filter params.accountId)
          (state.handler.filtered levels params).1 params.blockHash
          (state.handler.call levels params))) (accountId : String) :
    property ((state.step event).handler.filter accountId) ((state.step event).stays accountId) := by
  cases event with
  | submit levels params =>
    dsimp only [State.step]
    cases shared : state.handler.shares accountId params.accountId with
    | true =>
      obtain ⟨same, filtered⟩ := @SubmissionHandler.filter_shared levels _ _ _ shared
      rw [if_pos rfl, filtered, same]
      have kept := before accountId
      rw [same] at kept
      exact submitted levels params rfl _ kept
    | false =>
      rw [if_neg Bool.false_ne_true, SubmissionHandler.filter_apart shared]
      exact before accountId
  | ended =>
    have same : (state.handler.ended).filter accountId = state.handler.filter accountId := by
      cases state.handler <;> rfl
    dsimp only [State.step]
    rw [same]
    exact before accountId

theorem Kept.submit {handler : SubmissionHandler} {levels : LevelFilter}
    {params : SubmitNonceParams} {stays : Stays}
    (kept : Kept (handler.filter params.accountId) stays) :
    Kept (handler.filtered levels params).1
      (stays.after (handler.filter params.accountId) (handler.filtered levels params).1
        params.blockHash (handler.call levels params)) := by
  have silent (outcome : Except Panic Unit)
      (filtered : (handler.filtered levels params).2 = outcome.map fun _ => false) :
      (handler.call levels params).forwarded = false := by
    rw [Bool.eq_false_iff]
    intro forwarded
    have sent := (SubmissionHandler.call_forwarded.mp forwarded).1
    rw [filtered] at sent
    cases outcome <;> cases sent
  refine ⟨kept.wellFormed.submit, ?_⟩
  apply Stays.after_forall kept.wellFormed Stay.none kept.stay
  · intro best stay worse filtered
    exact stay.worse worse (silent _ filtered)
  · intro best known stay better filtered
    exact @Stay.better _ _ stay (handler.call levels params) better
  · intro unknown room filtered
    exact Stay.first (handler.call levels params)

/-- The call gets as far as storing its quality. -/
def AccountFilter.Stores (lines : LogLines) (levels : LevelFilter) (blockHash : String)
    (rawQuality : UInt64) (filter : AccountFilter) : Prop :=
  filter.Improves blockHash rawQuality ∧
    (filter.bestQualities blockHash = none →
      ∀ line ∈ filter.evictionLogs lines, line.Quiet levels)

/-- The log line behind the storing. -/
def AccountFilter.storeLog (lines : LogLines) (blockHash : String) (filter : AccountFilter) :
    LogLine :=
  match filter.bestQualities blockHash with
  | some _ => lines.updated
  | none => lines.added

/-- A call that stores its quality writes its log line and finds the sending task alive. -/
def delivers (state : State) : Event → Prop
  | .submit levels params =>
    (state.handler.filter params.accountId).Stores (state.handler.lines params) levels
        params.blockHash params.rawQuality →
      ((state.handler.filter params.accountId).storeLog (state.handler.lines params)
          params.blockHash).Quiet levels ∧
        state.handler.txSubmit.alive = true
  | .ended => True

theorem SubmissionHandler.call_sends {handler : SubmissionHandler} {levels : LevelFilter}
    {params : SubmitNonceParams} {line : LogLine} (quiet : line.Quiet levels)
    (alive : handler.txSubmit.alive = true)
    (filtered : (handler.filtered levels params).2 = (line.write levels).map fun _ => true) :
    (handler.call levels params).forwarded = true ∧
      (handler.call levels params).answer ≠ .ok false := by
  rw [(LogLine.write_ok_iff levels line).mpr quiet] at filtered
  refine ⟨SubmissionHandler.call_forwarded.mpr ⟨filtered, alive⟩, ?_⟩
  intro refused
  rcases SubmissionHandler.call_refused refused with turned | ⟨-, dead⟩
  · rw [filtered] at turned
    cases turned
  · rw [alive] at dead
    cases dead

theorem Delivered.submit {state : State} {levels : LevelFilter} {params : SubmitNonceParams}
    (allowed : delivers state (.submit levels params)) {stays : Stays}
    (formed : (state.handler.filter params.accountId).WellFormed)
    (delivered : ∀ hash, Delivered ((state.handler.filter params.accountId).bestQualities hash)
      (stays hash)) (hash : String) :
    Delivered ((state.handler.filtered levels params).1.bestQualities hash)
      (stays.after (state.handler.filter params.accountId) (state.handler.filtered levels params).1
        params.blockHash (state.handler.call levels params) hash) := by
  rw [delivers, AccountFilter.Stores, AccountFilter.storeLog] at allowed
  apply Stays.after_forall formed Delivered.none delivered
  · intro best kept worse filtered
    exact kept.worse worse
  · intro best known kept better filtered
    have stores := AccountFilter.improves_known known better
    rw [known] at allowed
    obtain ⟨quiet, alive⟩ := allowed ⟨stores, fun unknown => nomatch unknown⟩
    obtain ⟨forwarded, taken⟩ := SubmissionHandler.call_sends quiet alive filtered
    exact @Delivered.sends _ kept.fair (state.handler.call levels params) forwarded taken
  · intro unknown room filtered
    have stores : (state.handler.filter params.accountId).Improves params.blockHash
        params.rawQuality := AccountFilter.improves_new unknown
    rw [unknown] at allowed
    obtain ⟨quiet, alive⟩ := allowed ⟨stores, fun _ => AccountFilter.makeRoom_ok_iff.mp room⟩
    obtain ⟨forwarded, taken⟩ := SubmissionHandler.call_sends quiet alive filtered
    exact @Delivered.sends [] Delivered.none.fair (state.handler.call levels params) forwarded taken

theorem kept_empty : Kept .empty fun _ => [] :=
  ⟨⟨List.nodup_nil, by decide, by simp [AccountFilter.empty]⟩, fun _ => Stay.none⟩

theorem SubmissionHandler.New.filter {handler : SubmissionHandler} (new : handler.New)
    (accountId : String) : handler.filter accountId = .empty := by
  cases new <;> rfl

theorem kept_reachable {state : State} (reached : Reachable system always state)
    (accountId : String) : Kept (state.handler.filter accountId) (state.stays accountId) := by
  induction reached generalizing accountId with
  | start initial =>
    rw [initial.1.filter, initial.2]
    exact kept_empty
  | @next before after event _ _ taken ih =>
    obtain rfl := Option.some.inj taken
    apply State.step_forall ih
    intro levels params _ stays kept
    exact kept.submit

theorem delivered_reachable {state : State} (reached : Reachable system delivers state)
    (accountId hash : String) :
    Delivered ((state.handler.filter accountId).bestQualities hash) (state.stays accountId hash) := by
  induction reached generalizing accountId hash with
  | start initial =>
    rw [initial.1.filter, initial.2]
    exact Delivered.none
  | @next before after event reached allows taken ih =>
    obtain rfl := Option.some.inj taken
    have formed := kept_reachable (reached.mono fun _ _ _ => trivial)
    have every := @State.step_forall
      (fun filter stays => ∀ hash, Delivered (filter.bestQualities hash) (stays hash)) before ih event
    apply every
    rintro levels params rfl stays delivered
    exact Delivered.submit allows (formed params.accountId).wellFormed delivered

/-- The filters stay in step with what was submitted; a submission is turned away for a better one
as long as what is stored is also sent. -/
theorem three_block_filter (state : State) :
    (Reachable system always state →
      ∀ accountId, Kept (state.handler.filter accountId) (state.stays accountId)) ∧
    (∀ levels params queue accountId, accountId ≠ params.accountId →
      (SubmissionQueue.submit levels params queue).1.accountFilters accountId =
        queue.accountFilters accountId) ∧
    (Reachable system delivers state →
      ∀ accountId hash, Fair (state.stays accountId hash)) := by
  refine ⟨fun reached => kept_reachable reached, ?_, ?_⟩
  · intro levels params queue accountId other
    exact Function.update_of_ne other _ _
  · intro reached accountId hash
    exact (delivered_reachable reached accountId hash).fair

/-- A block hash of sixteen bytes. -/
def longHash : SubmitNonceParams := { shortHash with blockHash := "0123456789abcdef" }

def newState : State := ⟨newPool.submissionHandler, fun _ _ => []⟩

theorem repeated_submission_fair :
    (((newState.step (.submit .info longHash)).step (.submit .info longHash)).stays
        longHash.accountId longHash.blockHash).map Call.answer = [.ok true, .ok false] ∧
      Fair (((newState.step (.submit .info longHash)).step (.submit .info longHash)).stays
        longHash.accountId longHash.blockHash) := by
  have initial : system.initial newState := ⟨.pool, rfl⟩
  have quiet (state : State) (kind : state.handler.lines longHash = SubmissionQueue.lines longHash)
      (alive : state.handler.txSubmit.alive = true) : delivers state (.submit .info longHash) := by
    intro _
    refine ⟨?_, alive⟩
    rw [kind, AccountFilter.storeLog, ← LogLine.write_ok_iff]
    split <;> decide +kernel
  have once : Reachable system delivers (newState.step (.submit .info longHash)) :=
    .next (.start initial) (quiet newState rfl rfl) rfl
  have twice := once.next (quiet _ (by rfl) (by decide +kernel)) rfl
  exact ⟨by decide +kernel, (three_block_filter _).2.2 twice _ _⟩

/-- A quality whose log line could not be written keeps an equal one from being sent. -/
theorem unsent_quality_refuses :
    ¬ ∀ state, Reachable system always state → ∀ accountId hash, Fair (state.stays accountId hash) := by
  intro fair
  have initial : system.initial newState := ⟨.pool, rfl⟩
  have twice : Reachable system always
      ((newState.step (.submit .info shortHash)).step (.submit .info shortHash)) :=
    .next (.next (.start initial) trivial rfl) trivial rfl
  have calls : ((newState.step (.submit .info shortHash)).step (.submit .info shortHash)).stays
      shortHash.accountId shortHash.blockHash =
        [⟨7, false, .error .badSlice⟩] ++ ⟨7, false, .ok false⟩ :: [] := by
    decide +kernel
  obtain ⟨better, found, forwarded, -⟩ := fair _ twice _ _ _ _ _ calls rfl
  rw [List.mem_singleton.mp found] at forwarded
  cases forwarded

end Pocx.BlockFilter
