import Mathlib.Data.List.Basic
import Mathlib.Logic.Function.Basic
import Pocx.Miner.PrioRetry
import Pocx.Protocol.Errors

set_option autoImplicit false

namespace Pocx.RequestHandler

open PrioRetry (Config DelayedItem SubmissionParameters Yield)
open Protocol (ProtocolError SubmitNonceResult)
open Transition (System Reachable always)

structure PoolError where
  code : Int32
  message : String

/-- The errors of `reqwest` are given by their texts. -/
inductive FetchError
  | http (err : String)
  | pool (error : PoolError)

structure SubmitNonceResponse where
  rawQuality : UInt64
  pocTime : UInt64

/-- `Display` of a `ProtocolError`. -/
def errorText : ProtocolError → String
  | .parseError msg => "Parse error: " ++ msg
  | .invalidRequest msg => "Invalid request: " ++ msg
  | .methodNotFound method => "Method not found: " ++ method
  | .invalidParams msg => "Invalid params: " ++ msg
  | .internalError msg => "Internal error: " ++ msg
  | .invalidSubmission reason => "Invalid submission: " ++ reason
  | .wrongHeight expected submitted =>
    "Wrong height - expected: " ++ toString expected ++ ", submitted: " ++ toString submitted
  | .staleSubmission => "Stale submission"
  | .authRequired => "Authentication required"
  | .authInvalid => "Invalid authentication"
  | .rateLimited => "Rate limited"
  | .notAssigned reason => "Not assigned to pool: " ++ reason
  | .networkError err => "Network error: " ++ err
  | .jsonError err => "JSON error: " ++ err
  | .other msg => "Other error: " ++ msg

abbrev Answer := Except ProtocolError SubmitNonceResult

/-- `ProtocolClient::submit_nonce` behind the JSON-RPC client. -/
def fetched : Answer → Except FetchError SubmitNonceResponse
  | .ok result => .ok ⟨result.rawQuality, result.pocTime⟩
  | .error (.networkError err) => .error (.http err)
  | .error error => .error (.pool ⟨error.errorCode, errorText error⟩)

structure AcceptedDeadline where
  chain : String
  account : String
  height : UInt64
  nonce : UInt64
  qualityRaw : UInt64
  compression : UInt8
  pocTime : UInt64

/-- The calls of `with_callback`. -/
inductive Callback
  | accepted (deadline : AcceptedDeadline)
  | retry (deadline : AcceptedDeadline) (reason : String)
  | rejected (deadline : AcceptedDeadline) (code : Int32) (message : String)

def deadlineOf (params : SubmissionParameters) (pocTime : UInt64) : AcceptedDeadline where
  chain := params.chain
  account := params.nonceSubmission.accountId
  height := params.nonceSubmission.blockHeight
  nonce := params.nonceSubmission.nonce
  qualityRaw := params.nonceSubmission.rawQuality
  compression := params.nonceSubmission.compression
  pocTime := pocTime

/-- `u64::MAX` -/
def noTime : UInt64 := UInt64.ofNat (2 ^ 64 - 1)

/-- The pool has too much load. -/
def isBusy (error : PoolError) : Bool := error.message == "" || error.message == "limit exceeded"

/-- The callback of a handler for the response to a submission, and whether it is to be retried.
An account that is not assigned is rejected like the rest. -/
def handleResponse (params : SubmissionParameters) :
    Except FetchError SubmitNonceResponse → Callback × Bool
  | .ok res => (.accepted (deadlineOf params res.pocTime), false)
  | .error (.pool error) =>
    if isBusy error then (.retry (deadlineOf params noTime) "server busy", true)
    else (.rejected (deadlineOf params noTime) error.code error.message, false)
  | .error (.http err) => (.retry (deadlineOf params noTime) err, true)

/-- The task of `handle_account_submissions` or `start_wallet_handler`: its channel, the oldest
first, its stream and the submission that it waits for; with what was sent to it, the answers and
the callbacks, the newest first. -/
structure Handler where
  queue : List SubmissionParameters
  stream : PrioRetry.State SubmissionParameters
  inFlight : Option SubmissionParameters
  stopped : Bool
  routed : List SubmissionParameters
  answered : List (SubmissionParameters × Answer)
  callbacks : List Callback

def newHandler : Handler := ⟨[], PrioRetry.initialState, none, false, [], [], []⟩

/-- The task is there. -/
def Handler.running (handler : Handler) : Bool := !handler.stopped && !handler.stream.panicked

/-- What reaches a handler: a submission, a poll that takes one from the channel, the end of its
delay, the answer of the pool, and the shutdown. -/
inductive HandlerLabel
  | arrive (params : SubmissionParameters)
  | poll (now : Nat)
  | elapse
  | answer (answer : Answer)
  | cancel

/-- What the stream yields in a turn. -/
def newYield (before after : PrioRetry.State SubmissionParameters) : Option SubmissionParameters :=
  if before.yielded.length < after.yielded.length then after.yielded.head?.map Yield.value else none

section Steps

variable (config : Config) (requeues : Bool)

def Handler.continueWith (handler : Handler) (queue : List SubmissionParameters)
    (stream : PrioRetry.State SubmissionParameters) : Handler :=
  { handler with
    queue := queue
    stream := stream
    inFlight := newYield handler.stream stream }

/-- The answer to the submission that is waited for. The handlers of the accounts send it to their
own channel again where it is to be retried, that of the wallet does not. -/
def Handler.receiveAnswer (handler : Handler) (params : SubmissionParameters) (answer : Answer) :
    Handler :=
  let response := handleResponse params (fetched answer)
  { handler with
    queue := if response.2 && requeues then handler.queue ++ [params] else handler.queue
    inFlight := none
    answered := (params, answer) :: handler.answered
    callbacks := response.1 :: handler.callbacks }

def Handler.step (handler : Handler) : HandlerLabel → Option Handler
  | .arrive params =>
    -- A channel without its task only logs what is sent to it.
    some { handler with
      queue := if handler.running then handler.queue ++ [params] else handler.queue
      routed := params :: handler.routed }
  | .poll now =>
    match handler.running, handler.inFlight, handler.queue with
    | true, none, params :: rest =>
      some (handler.continueWith rest (handler.stream.receive config params now))
    | _, _, _ => none
  | .elapse =>
    match handler.running, handler.inFlight, handler.queue with
    | true, none, [] => some (handler.continueWith [] (handler.stream.pollDelay true))
    | _, _, _ => none
  | .answer answer =>
    match handler.inFlight with
    | some params => some (handler.receiveAnswer requeues params answer)
    | none => none
  | .cancel =>
    match handler.inFlight with
    | some _ => none
    | none => some { handler with stopped := true }

def handlerSystem : System Handler HandlerLabel where
  initial handler := handler = newHandler
  step := Handler.step config requeues

end Steps

/-- The request handler of a chain in pool mode. -/
structure Pool where
  channel : List SubmissionParameters
  accountSenders : String → Option Handler
  stopped : Bool
  submitted : List SubmissionParameters

/-- The miner submits, the demultiplexer takes a submission or is shut down, and the handler of an
account goes on. -/
inductive PoolLabel
  | submit (params : SubmissionParameters)
  | route
  | cancel
  | handler (account : String) (label : HandlerLabel)

section PoolSteps

variable (config : Config)

/-- The handler of an account is created with its first submission. -/
def Pool.route (pool : Pool) (params : SubmissionParameters) (rest : List SubmissionParameters) :
    Option Pool :=
  let account := params.nonceSubmission.accountId
  let handler := (pool.accountSenders account).getD newHandler
  (handler.step config true (.arrive params)).map fun routed =>
    { pool with
      channel := rest
      accountSenders := Function.update pool.accountSenders account (some routed) }

def Pool.step (pool : Pool) : PoolLabel → Option Pool
  | .submit params =>
    -- Sending to a demultiplexer that has stopped panics.
    if pool.stopped then none
    else some { pool with
      channel := pool.channel ++ [params]
      submitted := params :: pool.submitted }
  | .route =>
    match pool.stopped, pool.channel with
    | false, params :: rest => pool.route config params rest
    | _, _ => none
  | .cancel => some { pool with stopped := true }
  | .handler account label =>
    match pool.accountSenders account, label with
    | some _, .arrive _ => none
    | some handler, label =>
      (handler.step config true label).map fun after =>
        { pool with accountSenders := Function.update pool.accountSenders account (some after) }
    | none, _ => none

def poolSystem : System Pool PoolLabel where
  initial pool := pool = ⟨[], fun _ => none, false, []⟩
  step := Pool.step config

end PoolSteps

section Streams

open PrioRetry (State)

/-- What a turn of the stream does with the next submission of the channel: it yields it, or arms
the delay of an equal one, or drops it for a better one; or the delay overflows. -/
inductive Received (before after : State SubmissionParameters) (params : SubmissionParameters) : Prop
  | yields (kept : after.delayedItem = some (.new params))
      (below : ∀ item, before.delayedItem = some item → compare item.value params = .lt)
      (yielded : ∃ inputs, after.yielded = ⟨params, false, inputs⟩ :: before.yielded)
  | arms (item delayed : DelayedItem SubmissionParameters)
      (was : before.delayedItem = some item) (kept : after.delayedItem = some delayed)
      (same : delayed.value = item.value) (armed : delayed.delay.isSome = true)
      (equal : compare item.value params = .eq) (yielded : after.yielded = before.yielded)
  | drops (item : DelayedItem SubmissionParameters) (was : before.delayedItem = some item)
      (kept : after.delayedItem = some item) (greater : compare item.value params = .gt)
      (yielded : after.yielded = before.yielded)
  | overflows (panicked : after.panicked = true) (kept : after.delayedItem = before.delayedItem)
      (yielded : after.yielded = before.yielded)

theorem expBackoff_armed {config : Config} {now : Nat}
    {item delayed : DelayedItem SubmissionParameters}
    (done : item.expBackoff config now = .ok delayed) : delayed.delay.isSome = true := by
  rw [DelayedItem.expBackoff] at done
  obtain ⟨factor, -, done⟩ := Panicking.bind_eq_ok.mp done
  obtain ⟨backoff, -, done⟩ := Panicking.bind_eq_ok.mp done
  obtain ⟨deadline, -, done⟩ := Panicking.bind_eq_ok.mp done
  obtain ⟨attempt, -, done⟩ := Panicking.bind_eq_ok.mp done
  obtain rfl := Except.ok.inj done
  rfl

theorem receive_received (config : Config) (stream : State SubmissionParameters)
    (params : SubmissionParameters) (now : Nat) :
    (stream.receive config params now).arrived = params :: stream.arrived ∧
      (stream.receive config params now).ended = stream.ended ∧
      Received stream (stream.receive config params now) params := by
  cases kept : stream.delayedItem with
  | none =>
    rw [State.receive, kept]
    refine ⟨rfl, rfl, .yields rfl ?_ ⟨_, rfl⟩⟩
    intro item held
    rw [kept] at held
    cases held
  | some item =>
    rw [PrioRetry.State.receive_some kept]
    cases order : compare item.value params with
    | lt =>
      refine ⟨rfl, rfl, .yields rfl ?_ ⟨_, rfl⟩⟩
      intro other held
      rw [kept] at held
      obtain rfl := Option.some.inj held
      exact order
    | eq =>
      simp only [State.requeue]
      cases delayed : item.expBackoff config now with
      | error panic => exact ⟨rfl, rfl, .overflows rfl rfl rfl⟩
      | ok next =>
        exact ⟨rfl, rfl, .arms item next kept rfl (DelayedItem.expBackoff_value delayed)
          (expBackoff_armed delayed) order rfl⟩
    | gt => exact ⟨rfl, rfl, .drops item kept kept order rfl⟩

/-- The end of a delay yields what was delayed. -/
inductive Elapsed (before after : State SubmissionParameters) : Prop
  | yields (item : DelayedItem SubmissionParameters) (was : before.delayedItem = some item)
      (armed : item.delay.isSome = true) (kept : after.delayedItem = some item.pause)
      (yielded : ∃ inputs, after.yielded = ⟨item.value, true, inputs⟩ :: before.yielded)
  | nothing (same : after = before)
      (idle : ∀ item, before.delayedItem = some item → item.delay.isSome = false)

theorem pollDelay_elapsed (stream : State SubmissionParameters) :
    (stream.pollDelay true).arrived = stream.arrived ∧
      (stream.pollDelay true).panicked = stream.panicked ∧
      (stream.pollDelay true).ended = stream.ended ∧ Elapsed stream (stream.pollDelay true) := by
  rw [State.pollDelay]
  cases kept : stream.delayedItem with
  | none =>
    refine ⟨rfl, rfl, rfl, .nothing rfl ?_⟩
    intro item held
    rw [kept] at held
    cases held
  | some item =>
    dsimp only
    by_cases armed : item.delay.isSome = true
    · rw [Bool.true_and, if_pos armed]
      exact ⟨rfl, rfl, rfl, .yields item kept armed rfl ⟨_, rfl⟩⟩
    · rw [Bool.true_and, if_neg armed]
      refine ⟨rfl, rfl, rfl, .nothing rfl ?_⟩
      intro other held
      rw [kept] at held
      obtain rfl := Option.some.inj held
      exact Bool.eq_false_iff.mpr armed

theorem newYield_cons {before after : State SubmissionParameters}
    {yield : Yield SubmissionParameters} (yielded : after.yielded = yield :: before.yielded) :
    newYield before after = some yield.value := by
  rw [newYield, yielded, if_pos (by rw [List.length_cons]; omega)]
  rfl

theorem newYield_same {before after : State SubmissionParameters}
    (yielded : after.yielded = before.yielded) : newYield before after = none := by
  rw [newYield, yielded, if_neg (Nat.lt_irrefl _)]

end Streams

/-- A submission that will be sent to the pool, unless a better one takes its place. -/
def Live (handler : Handler) (params : SubmissionParameters) : Prop :=
  params ∈ handler.queue ∨ handler.inFlight = some params ∨
    ∃ item, handler.stream.delayedItem = some item ∧ item.delay.isSome = true ∧ item.value = params

/-- A submission that was answered, where a handler retries not with a busy pool or a failed
request. -/
def Settled (requeues : Bool) (handler : Handler) (params : SubmissionParameters) : Prop :=
  ∃ answer, (params, answer) ∈ handler.answered ∧
    (requeues = true → (handleResponse params (fetched answer)).2 = false)

/-- A submission that is settled or live, or a better one is. -/
def Covered (requeues : Bool) (handler : Handler) (params : SubmissionParameters) : Prop :=
  ∃ best, (compare params best).isLE = true ∧
    (Settled requeues handler best ∨ Live handler best)

/-- The submissions that a handler has sent to the pool, the newest first. -/
def Handler.sends (handler : Handler) : List SubmissionParameters :=
  handler.inFlight.toList ++ handler.answered.map Prod.fst

/-- The answers behind which a submission is sent to the channel again. -/
def Handler.retries (requeues : Bool) (handler : Handler) : Nat :=
  (handler.answered.filter fun sent =>
    (handleResponse sent.1 (fetched sent.2)).2 && requeues).length

/-- Whether the delay of the stream is running. -/
def armed (stream : PrioRetry.State SubmissionParameters) : Nat :=
  match stream.delayedItem with
  | some item => if item.delay.isSome then 1 else 0
  | none => 0

/-- What a handler has sent, received and counted. -/
structure Tracked (config : Config) (requeues : Bool) (handler : Handler) : Prop where
  stream : Reachable (PrioRetry.system config) always handler.stream
  flowing : handler.stream.ended = false
  queued : ∀ params ∈ handler.queue, params ∈ handler.routed
  arrived : ∀ params ∈ handler.stream.arrived, params ∈ handler.routed
  yielded : ∀ yield ∈ handler.stream.yielded, yield.value ∈ handler.routed
  sends : handler.sends = handler.stream.yielded.map Yield.value
  called : handler.callbacks =
    handler.answered.map fun sent => (handleResponse sent.1 (fetched sent.2)).1
  counted : handler.stream.arrived.length + handler.queue.length ≤
    handler.routed.length + handler.retries requeues
  delayed : handler.stream.yielded.length + armed handler.stream ≤ handler.stream.arrived.length

section Steps

variable {config : Config} {requeues : Bool} {handler after : Handler}

theorem poll_cases {now : Nat} (taken : handler.step config requeues (.poll now) = some after) :
    handler.running = true ∧ handler.inFlight = none ∧ ∃ params rest,
      handler.queue = params :: rest ∧
        after = handler.continueWith rest (handler.stream.receive config params now) := by
  simp only [Handler.step] at taken
  split at taken
  · rename_i running idle queue
    cases taken
    exact ⟨running, idle, _, _, queue, rfl⟩
  · cases taken

theorem elapse_cases (taken : handler.step config requeues .elapse = some after) :
    handler.running = true ∧ handler.inFlight = none ∧ handler.queue = [] ∧
      after = handler.continueWith [] (handler.stream.pollDelay true) := by
  simp only [Handler.step] at taken
  split at taken
  · rename_i running idle queue
    cases taken
    exact ⟨running, idle, queue, rfl⟩
  · cases taken

theorem running_stream (running : handler.running = true) :
    handler.stopped = false ∧ handler.stream.panicked = false := by
  simpa only [Handler.running, Bool.and_eq_true, Bool.not_eq_true'] using running

theorem Tracked.arrive (tracked : Tracked config requeues handler) (params : SubmissionParameters) :
    Tracked config requeues { handler with
      queue := if handler.running then handler.queue ++ [params] else handler.queue
      routed := params :: handler.routed } := by
  obtain ⟨stream, flowing, queued, arrived, yielded, sends, called, counted, delayed⟩ := tracked
  have later (known : SubmissionParameters) (listed : known ∈ handler.routed) :
      known ∈ params :: handler.routed := List.mem_cons_of_mem _ listed
  refine ⟨stream, flowing, ?_, fun known listed => later known (arrived known listed),
    fun yield listed => later _ (yielded yield listed), sends, called, ?_, delayed⟩
  · intro known listed
    simp only at listed
    split at listed
    · rcases List.mem_append.mp listed with before | new
      · exact later known (queued known before)
      · rw [List.mem_singleton.mp new]
        exact List.mem_cons_self
    · exact later known (queued known listed)
  · have same : Handler.retries requeues { handler with
        queue := if handler.running then handler.queue ++ [params] else handler.queue
        routed := params :: handler.routed } = handler.retries requeues := rfl
    rw [same, List.length_cons]
    simp only
    split
    · rw [List.length_append, List.length_singleton]
      omega
    · omega

/-- What a handler waits for is what its stream has yielded last. -/
theorem sends_continue {queue : List SubmissionParameters}
    {stream : PrioRetry.State SubmissionParameters} (idle : handler.inFlight = none)
    (sends : handler.sends = handler.stream.yielded.map Yield.value)
    (yielded : stream.yielded = handler.stream.yielded ∨
      ∃ yield, stream.yielded = yield :: handler.stream.yielded) :
    (handler.continueWith queue stream).sends = stream.yielded.map Yield.value := by
  have before : handler.answered.map Prod.fst = handler.stream.yielded.map Yield.value := by
    rw [← sends, Handler.sends, idle, Option.toList_none, List.nil_append]
  rw [Handler.sends, Handler.continueWith]
  simp only
  rw [before]
  rcases yielded with same | ⟨yield, grown⟩
  · rw [newYield_same same, same]
    rfl
  · rw [newYield_cons grown, grown]
    rfl

theorem Tracked.poll (tracked : Tracked config requeues handler) {now : Nat}
    (taken : handler.step config requeues (.poll now) = some after) :
    Tracked config requeues after := by
  obtain ⟨running, idle, params, rest, queue, rfl⟩ := poll_cases taken
  obtain ⟨-, unpanicked⟩ := running_stream running
  obtain ⟨stream, flowing, queued, arrived, yielded, sends, called, counted, delayed⟩ := tracked
  obtain ⟨arrivals, ended, received⟩ := receive_received config handler.stream params now
  have turn : (PrioRetry.system config).step handler.stream (.item params now) =
      some (handler.stream.receive config params now) := by
    simp only [PrioRetry.system, PrioRetry.State.step, unpanicked, flowing, Bool.or_self,
      Bool.false_eq_true, ↓reduceIte]
  have known : params ∈ handler.routed := queued params (by rw [queue]; exact List.mem_cons_self)
  have grows : (handler.stream.receive config params now).yielded = handler.stream.yielded ∨
      ∃ yield, yield.value = params ∧
        (handler.stream.receive config params now).yielded = yield :: handler.stream.yielded := by
    cases received with
    | yields kept below grown =>
      obtain ⟨inputs, grown⟩ := grown
      exact Or.inr ⟨_, rfl, grown⟩
    | arms item delayed was kept same armed equal yielded => exact Or.inl yielded
    | drops item was kept greater yielded => exact Or.inl yielded
    | overflows panicked kept yielded => exact Or.inl yielded
  refine ⟨stream.next trivial turn, ended.trans flowing, ?_, ?_, ?_, ?_, called, ?_, ?_⟩
  · intro other listed
    exact queued other (by rw [queue]; exact List.mem_cons_of_mem _ listed)
  · simp only [Handler.continueWith, arrivals]
    exact List.forall_mem_cons.mpr ⟨known, arrived⟩
  · simp only [Handler.continueWith]
    rcases grows with same | ⟨yield, value, grown⟩
    · rw [same]
      exact yielded
    · rw [grown]
      exact List.forall_mem_cons.mpr ⟨by rw [value]; exact known, yielded⟩
  · apply sends_continue idle sends
    rcases grows with same | ⟨yield, -, grown⟩
    · exact Or.inl same
    · exact Or.inr ⟨yield, grown⟩
  · have same : (handler.continueWith rest (handler.stream.receive config params now)).retries
        requeues = handler.retries requeues := rfl
    rw [queue, List.length_cons] at counted
    rw [same]
    simp only [Handler.continueWith, arrivals, List.length_cons]
    omega
  · simp only [Handler.continueWith, arrivals, List.length_cons]
    cases received with
    | yields kept below grown =>
      obtain ⟨inputs, grown⟩ := grown
      have rests : armed (handler.stream.receive config params now) = 0 := by
        rw [armed, kept]
        rfl
      rw [rests, grown, List.length_cons]
      omega
    | arms item next was kept same delays equal grown =>
      have once : armed (handler.stream.receive config params now) = 1 := by
        simp only [armed, kept, delays, ↓reduceIte]
      rw [once, grown]
      omega
    | drops item was kept greater grown =>
      have same : armed (handler.stream.receive config params now) = armed handler.stream := by
        rw [armed, armed, kept, was]
      rw [same, grown]
      omega
    | overflows panicked kept grown =>
      have same : armed (handler.stream.receive config params now) = armed handler.stream := by
        rw [armed, armed, kept]
      rw [same, grown]
      omega

theorem Tracked.elapse (tracked : Tracked config requeues handler)
    (taken : handler.step config requeues .elapse = some after) :
    Tracked config requeues after := by
  obtain ⟨running, idle, queue, rfl⟩ := elapse_cases taken
  obtain ⟨-, unpanicked⟩ := running_stream running
  obtain ⟨stream, flowing, queued, arrived, yielded, sends, called, counted, delayed⟩ := tracked
  obtain ⟨arrivals, -, ended, elapsed⟩ := pollDelay_elapsed handler.stream
  have turn : (PrioRetry.system config).step handler.stream (.pending true) =
      some (handler.stream.pollDelay true) := by
    simp only [PrioRetry.system, PrioRetry.State.step, unpanicked, flowing, Bool.or_self,
      Bool.false_eq_true, ↓reduceIte]
  have counts : (handler.continueWith [] (handler.stream.pollDelay true)).retries requeues =
      handler.retries requeues := rfl
  have reached : Reachable (PrioRetry.system config) always (handler.stream.pollDelay true) :=
    stream.next trivial turn
  have lengths : (handler.stream.pollDelay true).arrived.length + ([] : List SubmissionParameters).length
      ≤ handler.routed.length + handler.retries requeues := by
    rw [arrivals, List.length_nil]
    omega
  have listed : ∀ params ∈ (handler.stream.pollDelay true).arrived, params ∈ handler.routed := by
    rw [arrivals]
    exact arrived
  cases elapsed with
  | nothing same idles =>
    refine ⟨reached, ended.trans flowing, List.forall_mem_nil _, listed, ?_, ?_, called, ?_, ?_⟩
    · simp only [Handler.continueWith, same]
      exact yielded
    · exact sends_continue idle sends (Or.inl (by rw [same]))
    · rw [counts]
      exact lengths
    · simp only [Handler.continueWith, same]
      exact delayed
  | yields item was armedItem kept grown =>
    obtain ⟨inputs, grown⟩ := grown
    have current := (PrioRetry.invariant_reachable stream).current item was
    refine ⟨reached, ended.trans flowing, List.forall_mem_nil _, listed, ?_, ?_, called, ?_, ?_⟩
    · simp only [Handler.continueWith, grown]
      exact List.forall_mem_cons.mpr ⟨arrived _ current.arrived, yielded⟩
    · exact sends_continue idle sends (Or.inr ⟨_, grown⟩)
    · rw [counts]
      exact lengths
    · have before : armed handler.stream = 1 := by
        simp only [armed, was, armedItem, ↓reduceIte]
      have rests : armed (handler.stream.pollDelay true) = 0 := by
        rw [armed, kept]
        rfl
      simp only [Handler.continueWith, grown, rests, arrivals, List.length_cons]
      omega

theorem Tracked.receiveAnswer (tracked : Tracked config requeues handler)
    {params : SubmissionParameters} (waits : handler.inFlight = some params) (answer : Answer) :
    Tracked config requeues (handler.receiveAnswer requeues params answer) := by
  obtain ⟨stream, flowing, queued, arrived, yielded, sends, called, counted, delayed⟩ := tracked
  have sent : handler.sends = params :: handler.answered.map Prod.fst := by
    rw [Handler.sends, waits]
    rfl
  have known : params ∈ handler.routed := by
    have listed : params ∈ handler.stream.yielded.map Yield.value := by
      rw [← sends, sent]
      exact List.mem_cons_self
    obtain ⟨yield, found, rfl⟩ := List.mem_map.mp listed
    exact yielded yield found
  refine ⟨stream, flowing, ?_, arrived, yielded, ?_, ?_, ?_, delayed⟩
  · intro other listed
    simp only [Handler.receiveAnswer] at listed
    split at listed
    · rcases List.mem_append.mp listed with before | again
      · exact queued other before
      · rw [List.mem_singleton.mp again]
        exact known
    · exact queued other listed
  · exact sent.symm.trans sends
  · simp only [Handler.receiveAnswer, List.map_cons, called]
  · simp only [Handler.receiveAnswer, Handler.retries, List.filter_cons] at counted ⊢
    split
    · rw [List.length_append, List.length_singleton, List.length_cons]
      omega
    · exact counted

theorem Tracked.step (tracked : Tracked config requeues handler) {label : HandlerLabel}
    (taken : handler.step config requeues label = some after) : Tracked config requeues after := by
  cases label with
  | arrive params =>
    cases taken
    exact tracked.arrive params
  | poll now => exact tracked.poll taken
  | elapse => exact tracked.elapse taken
  | answer answer =>
    simp only [Handler.step] at taken
    cases waits : handler.inFlight with
    | none =>
      rw [waits] at taken
      cases taken
    | some params =>
      rw [waits] at taken
      cases taken
      exact tracked.receiveAnswer waits answer
  | cancel =>
    simp only [Handler.step] at taken
    cases waits : handler.inFlight with
    | some params =>
      rw [waits] at taken
      cases taken
    | none =>
      rw [waits] at taken
      cases taken
      obtain ⟨stream, flowing, queued, arrived, yielded, sends, called, counted, delayed⟩ := tracked
      refine ⟨stream, flowing, queued, arrived, yielded, ?_, called, counted, delayed⟩
      rw [← sends, Handler.sends, Handler.sends, waits]

theorem tracked_reachable (reached : Reachable (handlerSystem config requeues) always handler) :
    Tracked config requeues handler := by
  refine reached.invariant (Tracked config requeues) ?_ ?_
  · rintro _ rfl
    exact ⟨.start rfl, rfl, List.forall_mem_nil _, List.forall_mem_nil _, List.forall_mem_nil _, rfl,
      rfl, Nat.le_refl 0, Nat.le_refl 0⟩
  · intro before label after tracked _ taken
    exact tracked.step taken

/-- While a handler runs, no submission that was sent to it is forgotten. -/
def NothingLost (requeues : Bool) (handler : Handler) : Prop :=
  handler.running = true → ∀ params ∈ handler.routed, Covered requeues handler params

/-- What stays live or is passed on to an item that is as good keeps all that it covers. -/
theorem Covered.pass {before : Handler} {params : SubmissionParameters}
    (covered : Covered requeues before params)
    (settled : ∀ other, Settled requeues before other → Settled requeues after other)
    (live : ∀ other, Live before other → Covered requeues after other) :
    Covered requeues after params := by
  obtain ⟨best, better, settles | lives⟩ := covered
  · exact ⟨best, better, Or.inl (settled best settles)⟩
  · obtain ⟨next, above, holds⟩ := live best lives
    exact ⟨next, Std.TransCmp.isLE_trans better above, holds⟩

theorem Covered.of_live {params : SubmissionParameters} (live : Live handler params) :
    Covered requeues handler params :=
  ⟨params, Ordering.isLE_of_eq_eq Std.ReflCmp.compare_self, Or.inr live⟩

theorem NothingLost.arrive (covered : NothingLost requeues handler) (params : SubmissionParameters) :
    NothingLost requeues { handler with
      queue := if handler.running then handler.queue ++ [params] else handler.queue
      routed := params :: handler.routed } := by
  intro running
  have before : handler.running = true := running
  simp only [before, ↓reduceIte]
  refine List.forall_mem_cons.mpr ⟨?_, ?_⟩
  · exact Covered.of_live (Or.inl (List.mem_append_right _ List.mem_cons_self))
  · intro known listed
    refine (covered before known listed).pass (fun _ settled => settled) ?_
    rintro other (queued | rest)
    · exact Covered.of_live (Or.inl (List.mem_append_left _ queued))
    · exact Covered.of_live (Or.inr rest)

theorem NothingLost.poll (covered : NothingLost requeues handler)
    (tracked : Tracked config requeues handler) {now : Nat}
    (taken : handler.step config requeues (.poll now) = some after) :
    NothingLost requeues after := by
  obtain ⟨running, idle, params, rest, queue, rfl⟩ := poll_cases taken
  obtain ⟨-, -, received⟩ := receive_received config handler.stream params now
  intro goesOn known listed
  obtain ⟨-, unpanicked⟩ := running_stream goesOn
  have before := covered running known listed
  cases received with
  | yields kept below grown =>
    obtain ⟨inputs, grown⟩ := grown
    have waits : Live (handler.continueWith rest (handler.stream.receive config params now)) params :=
      Or.inr (Or.inl (newYield_cons grown))
    refine before.pass (fun _ settled => settled) ?_
    rintro other (queued | flies | ⟨item, held, -, rfl⟩)
    · rw [queue] at queued
      rcases List.mem_cons.mp queued with rfl | behind
      · exact Covered.of_live waits
      · exact Covered.of_live (Or.inl behind)
    · rw [idle] at flies
      cases flies
    · exact ⟨params, Ordering.isLE_of_eq_lt (below item held), Or.inr waits⟩
  | arms item delayed was kept same armedItem equal grown =>
    have waits : Live (handler.continueWith rest (handler.stream.receive config params now))
        item.value := Or.inr (Or.inr ⟨delayed, kept, armedItem, same⟩)
    refine before.pass (fun _ settled => settled) ?_
    rintro other (queued | flies | ⟨held, heldEq, -, rfl⟩)
    · rw [queue] at queued
      rcases List.mem_cons.mp queued with rfl | behind
      · exact ⟨item.value, Ordering.isLE_of_eq_eq (Std.OrientedCmp.eq_symm equal), Or.inr waits⟩
      · exact Covered.of_live (Or.inl behind)
    · rw [idle] at flies
      cases flies
    · rw [was] at heldEq
      obtain rfl := Option.some.inj heldEq
      exact Covered.of_live waits
  | drops item was kept greater grown =>
    -- The better item that stays was sent before, and is covered itself.
    have current := (PrioRetry.invariant_reachable tracked.stream).current item was
    have better := covered running item.value (tracked.arrived _ current.arrived)
    have below : compare params item.value = .lt := Std.OrientedCmp.lt_of_gt greater
    have stays (other : SubmissionParameters) (lives : Live handler other)
        (apart : other ≠ params) :
        Live (handler.continueWith rest (handler.stream.receive config params now)) other := by
      rcases lives with queued | flies | ⟨held, heldEq, armedItem, value⟩
      · rw [queue] at queued
        rcases List.mem_cons.mp queued with same | behind
        · exact absurd same apart
        · exact Or.inl behind
      · rw [idle] at flies
        cases flies
      · rw [was] at heldEq
        obtain rfl := Option.some.inj heldEq
        exact Or.inr (Or.inr ⟨item, kept, armedItem, value⟩)
    refine before.pass (fun _ settled => settled) ?_
    intro other lives
    by_cases same : other = params
    · rw [same]
      obtain ⟨best, above, settles | holds⟩ := better
      · exact ⟨best, Std.TransCmp.isLE_trans (Ordering.isLE_of_eq_lt below) above, Or.inl settles⟩
      · refine ⟨best, Std.TransCmp.isLE_trans (Ordering.isLE_of_eq_lt below) above,
          Or.inr (stays best holds ?_)⟩
        rintro rfl
        rw [greater] at above
        cases above
    · exact Covered.of_live (stays other lives same)
  | overflows panicked kept grown =>
    have stopped : (handler.stream.receive config params now).panicked = false := unpanicked
    rw [panicked] at stopped
    cases stopped

theorem NothingLost.elapse (covered : NothingLost requeues handler)
    (taken : handler.step config requeues .elapse = some after) : NothingLost requeues after := by
  obtain ⟨running, idle, queue, rfl⟩ := elapse_cases taken
  obtain ⟨-, -, -, elapsed⟩ := pollDelay_elapsed handler.stream
  intro _ known listed
  refine (covered running known listed).pass (fun _ settled => settled) ?_
  rintro other (queued | flies | ⟨held, heldEq, armedItem, rfl⟩)
  · rw [queue] at queued
    cases queued
  · rw [idle] at flies
    cases flies
  cases elapsed with
  | yields item was armedIt kept grown =>
    obtain ⟨inputs, grown⟩ := grown
    rw [was] at heldEq
    obtain rfl := Option.some.inj heldEq
    exact Covered.of_live (Or.inr (Or.inl (newYield_cons grown)))
  | nothing same idles =>
    rw [idles held heldEq] at armedItem
    cases armedItem

theorem NothingLost.receiveAnswer (covered : NothingLost requeues handler)
    {params : SubmissionParameters} (waits : handler.inFlight = some params) (answer : Answer) :
    NothingLost requeues (handler.receiveAnswer requeues params answer) := by
  intro running known listed
  refine (covered running known listed).pass ?_ ?_
  · rintro other ⟨answer, found, final⟩
    exact ⟨answer, List.mem_cons_of_mem _ found, final⟩
  · have stays (other : SubmissionParameters) (queued : other ∈ handler.queue) :
        Covered requeues (handler.receiveAnswer requeues params answer) other := by
      apply Covered.of_live
      refine Or.inl ?_
      simp only [Handler.receiveAnswer]
      split
      · exact List.mem_append_left _ queued
      · exact queued
    rintro other (queued | flies | delayed)
    · exact stays other queued
    · rw [waits] at flies
      obtain rfl := Option.some.inj flies
      by_cases again : ((handleResponse params (fetched answer)).2 && requeues) = true
      · apply Covered.of_live
        refine Or.inl ?_
        simp only [Handler.receiveAnswer, if_pos again]
        exact List.mem_append_right _ List.mem_cons_self
      · refine ⟨params, Ordering.isLE_of_eq_eq Std.ReflCmp.compare_self, Or.inl ⟨answer,
          List.mem_cons_self, ?_⟩⟩
        intro retries
        rw [retries, Bool.and_true] at again
        exact Bool.eq_false_iff.mpr again
    · exact Covered.of_live (Or.inr (Or.inr delayed))

theorem NothingLost.step (covered : NothingLost requeues handler)
    (tracked : Tracked config requeues handler) {label : HandlerLabel}
    (taken : handler.step config requeues label = some after) : NothingLost requeues after := by
  cases label with
  | arrive params =>
    cases taken
    exact covered.arrive params
  | poll now => exact covered.poll tracked taken
  | elapse => exact covered.elapse taken
  | answer answer =>
    simp only [Handler.step] at taken
    cases waits : handler.inFlight with
    | none =>
      rw [waits] at taken
      cases taken
    | some params =>
      rw [waits] at taken
      cases taken
      exact covered.receiveAnswer waits answer
  | cancel =>
    simp only [Handler.step] at taken
    cases waits : handler.inFlight with
    | some params =>
      rw [waits] at taken
      cases taken
    | none =>
      rw [waits] at taken
      cases taken
      intro running
      cases running

theorem nothingLost_reachable
    (reached : Reachable (handlerSystem config requeues) always handler) :
    NothingLost requeues handler := by
  induction reached with
  | start initial =>
    obtain rfl := initial
    exact fun _ => List.forall_mem_nil _
  | next before _ taken ih => exact ih.step (tracked_reachable before) taken

/-- What is settled or live has been sent to the handler. -/
theorem Tracked.best_routed (tracked : Tracked config requeues handler)
    {params : SubmissionParameters}
    (holds : Settled requeues handler params ∨ Live handler params) : params ∈ handler.routed := by
  have sent (listed : params ∈ handler.sends) : params ∈ handler.routed := by
    rw [tracked.sends] at listed
    obtain ⟨yield, found, rfl⟩ := List.mem_map.mp listed
    exact tracked.yielded yield found
  rcases holds with ⟨answer, found, -⟩ | queued | flies | ⟨item, held, -, rfl⟩
  · apply sent
    exact List.mem_append_right _ (List.mem_map_of_mem found)
  · exact tracked.queued params queued
  · apply sent
    rw [Handler.sends, flies]
    exact List.mem_append_left _ List.mem_cons_self
  · have current := (PrioRetry.invariant_reachable tracked.stream).current item held
    exact tracked.arrived _ current.arrived

/-- Only the demultiplexer adds to what was sent to a handler. -/
theorem step_routed {label : HandlerLabel} (taken : handler.step config requeues label = some after)
    (other : ∀ params, label ≠ .arrive params) : after.routed = handler.routed := by
  cases label with
  | arrive params => exact absurd rfl (other params)
  | poll now =>
    obtain ⟨-, -, params, rest, -, rfl⟩ := poll_cases taken
    rfl
  | elapse =>
    obtain ⟨-, -, -, rfl⟩ := elapse_cases taken
    rfl
  | answer answer =>
    simp only [Handler.step] at taken
    split at taken
    · cases taken
      rfl
    · cases taken
  | cancel =>
    simp only [Handler.step] at taken
    split at taken
    · cases taken
    · cases taken
      rfl

end Steps

section Answers

/-- The text starts with some character. -/
def StartsWith (text : String) (c : Char) : Prop := text.toList.head? = some c

theorem StartsWith.append {front : String} {c : Char} (starts : StartsWith front c) (rest : String) :
    StartsWith (front ++ rest) c := by
  rw [StartsWith, String.toList_append, List.head?_append, starts]
  rfl

/-- The texts that tell of a busy pool are empty or start with `l`. -/
theorem StartsWith.notBusy {text : String} {c : Char} (starts : StartsWith text c) (apart : c ≠ 'l')
    (code : Int32) : isBusy ⟨code, text⟩ = false := by
  rw [isBusy, Bool.or_eq_false_iff]
  constructor
  · apply beq_false_of_ne
    rintro rfl
    cases starts
  · apply beq_false_of_ne
    rintro rfl
    exact apart (Option.some.inj starts).symm

/-- No text of an error is one of them. -/
theorem errorText_notBusy (error : ProtocolError) (code : Int32) :
    isBusy ⟨code, errorText error⟩ = false := by
  have starts (front : String) (c : Char) (first : front.toList.head? = some c) :
      StartsWith front c := first
  cases error with
  | parseError msg => exact ((starts "Parse error: " 'P' rfl).append msg).notBusy (by decide) code
  | invalidRequest msg =>
    exact ((starts "Invalid request: " 'I' rfl).append msg).notBusy (by decide) code
  | methodNotFound method =>
    exact ((starts "Method not found: " 'M' rfl).append method).notBusy (by decide) code
  | invalidParams msg =>
    exact ((starts "Invalid params: " 'I' rfl).append msg).notBusy (by decide) code
  | internalError msg =>
    exact ((starts "Internal error: " 'I' rfl).append msg).notBusy (by decide) code
  | invalidSubmission reason =>
    exact ((starts "Invalid submission: " 'I' rfl).append reason).notBusy (by decide) code
  | wrongHeight expected submitted =>
    exact ((((starts "Wrong height - expected: " 'W' rfl).append _).append _).append _).notBusy
      (by decide) code
  | staleSubmission => exact (starts "Stale submission" 'S' rfl).notBusy (by decide) code
  | authRequired => exact (starts "Authentication required" 'A' rfl).notBusy (by decide) code
  | authInvalid => exact (starts "Invalid authentication" 'I' rfl).notBusy (by decide) code
  | rateLimited => exact (starts "Rate limited" 'R' rfl).notBusy (by decide) code
  | notAssigned reason =>
    exact ((starts "Not assigned to pool: " 'N' rfl).append reason).notBusy (by decide) code
  | networkError err =>
    exact ((starts "Network error: " 'N' rfl).append err).notBusy (by decide) code
  | jsonError err => exact ((starts "JSON error: " 'J' rfl).append err).notBusy (by decide) code
  | other msg => exact ((starts "Other error: " 'O' rfl).append msg).notBusy (by decide) code

/-- A failed request. -/
def failed : Answer → Option String
  | .error (.networkError err) => some err
  | _ => none

/-- A submission is retried where its request failed, whatever the pool answers. -/
theorem handleResponse_fetched (params : SubmissionParameters) (answer : Answer) :
    (handleResponse params (fetched answer)).2 = (failed answer).isSome ∧
      ∀ deadline reason, (handleResponse params (fetched answer)).1 = .retry deadline reason →
        failed answer = some reason := by
  have rejected (error : ProtocolError)
      (arrives : fetched (.error error) = .error (.pool ⟨error.errorCode, errorText error⟩))
      (none : failed (.error error) = Option.none) :
      (handleResponse params (fetched (.error error))).2 = (failed (.error error)).isSome ∧
        ∀ deadline reason, (handleResponse params (fetched (.error error))).1 =
          .retry deadline reason → failed (.error error) = some reason := by
    rw [arrives, none, handleResponse, errorText_notBusy]
    exact ⟨rfl, by simp⟩
  cases answer with
  | ok result => exact ⟨rfl, by simp [fetched, handleResponse]⟩
  | error error =>
    cases error with
    | networkError err =>
      refine ⟨rfl, ?_⟩
      intro deadline reason same
      cases same
      rfl
    | parseError => exact rejected _ rfl rfl
    | invalidRequest => exact rejected _ rfl rfl
    | methodNotFound => exact rejected _ rfl rfl
    | invalidParams => exact rejected _ rfl rfl
    | internalError => exact rejected _ rfl rfl
    | invalidSubmission => exact rejected _ rfl rfl
    | wrongHeight => exact rejected _ rfl rfl
    | staleSubmission => exact rejected _ rfl rfl
    | authRequired => exact rejected _ rfl rfl
    | authInvalid => exact rejected _ rfl rfl
    | rateLimited => exact rejected _ rfl rfl
    | notAssigned => exact rejected _ rfl rfl
    | jsonError => exact rejected _ rfl rfl
    | other => exact rejected _ rfl rfl

end Answers

section Pools

/-- A submission of the account. -/
def ofAccount (account : String) (params : SubmissionParameters) : Bool :=
  params.nonceSubmission.accountId == account

/-- What was sent to the handler of an account. -/
def Pool.routed (pool : Pool) (account : String) : List SubmissionParameters :=
  ((pool.accountSenders account).map Handler.routed).getD []

/-- Each handler is in a run of its own, and was sent in order what was submitted for its account
and does not wait for the demultiplexer. -/
structure Routes (config : Config) (pool : Pool) : Prop where
  handlers : ∀ account handler, pool.accountSenders account = some handler →
    Reachable (handlerSystem config true) always handler
  ordered : ∀ account, pool.submitted.filter (ofAccount account) =
    (pool.channel.filter (ofAccount account)).reverse ++ pool.routed account

variable {config : Config} {pool after : Pool}

theorem Routes.submit (routes : Routes config pool) (params : SubmissionParameters) :
    Routes config { pool with
      channel := pool.channel ++ [params]
      submitted := params :: pool.submitted } := by
  refine ⟨routes.handlers, ?_⟩
  intro account
  have before := routes.ordered account
  by_cases own : ofAccount account params = true
  · simp only [List.filter_cons, List.filter_append, own, ↓reduceIte, List.filter_nil,
      List.reverse_append, List.reverse_singleton, List.cons_append, before]
    rfl
  · simp only [List.filter_cons, List.filter_append, own, Bool.false_eq_true, ↓reduceIte,
      List.filter_nil, List.append_nil, before]
    rfl

/-- The handler of an account, or the one that is created for it. -/
theorem Routes.handler (routes : Routes config pool) (account : String) :
    Reachable (handlerSystem config true) always
        ((pool.accountSenders account).getD newHandler) ∧
      ((pool.accountSenders account).getD newHandler).routed = pool.routed account := by
  rw [Pool.routed]
  cases found : pool.accountSenders account with
  | none => exact ⟨.start rfl, rfl⟩
  | some handler => exact ⟨routes.handlers account handler found, rfl⟩

theorem Routes.route (routes : Routes config pool) {params : SubmissionParameters}
    {rest : List SubmissionParameters} (channel : pool.channel = params :: rest)
    (taken : pool.route config params rest = some after) : Routes config after := by
  obtain ⟨reached, known⟩ := routes.handler params.nonceSubmission.accountId
  simp only [Pool.route] at taken
  generalize (pool.accountSenders params.nonceSubmission.accountId).getD newHandler = handler
    at taken reached known
  obtain ⟨routed, arrived, rfl⟩ := Option.map_eq_some_iff.mp taken
  have moved : (handlerSystem config true).step handler (.arrive params) = some routed := arrived
  have next : routed.routed = params :: handler.routed := by
    cases arrived
    rfl
  constructor
  · intro account other found
    simp only [Function.update_apply] at found
    split at found
    · obtain rfl := Option.some.inj found
      exact reached.next trivial moved
    · exact routes.handlers account other found
  · intro account
    have before := routes.ordered account
    rw [channel, List.filter_cons] at before
    simp only [Pool.routed, Function.update_apply]
    by_cases own : account = params.nonceSubmission.accountId
    · have mine : ofAccount account params = true := by rw [ofAccount, own, beq_self_eq_true]
      rw [if_pos mine, List.reverse_cons, List.append_assoc] at before
      rw [if_pos own, before, Option.map_some, Option.getD_some, next, known, ← own]
      rfl
    · have foreign : ¬ ofAccount account params = true := by
        intro same
        exact own (beq_iff_eq.mp same).symm
      rw [if_neg foreign] at before
      rw [if_neg own, before]
      rfl

theorem Routes.serve (routes : Routes config pool) {account : String} {handler served : Handler}
    {label : HandlerLabel} (found : pool.accountSenders account = some handler)
    (other : ∀ params, label ≠ .arrive params)
    (taken : handler.step config true label = some served) :
    Routes config { pool with
      accountSenders := Function.update pool.accountSenders account (some served) } := by
  constructor
  · intro name known listed
    simp only [Function.update_apply] at listed
    split at listed
    · obtain rfl := Option.some.inj listed
      exact (routes.handlers account handler found).next trivial taken
    · exact routes.handlers name known listed
  · intro name
    rw [routes.ordered name]
    simp only [Pool.routed, Function.update_apply]
    split
    · rename_i same
      rw [same, found, Option.map_some, Option.map_some, Option.getD_some, Option.getD_some,
        step_routed taken other]
    · rfl

theorem Routes.step (routes : Routes config pool) {label : PoolLabel}
    (taken : pool.step config label = some after) : Routes config after := by
  cases label with
  | submit params =>
    simp only [Pool.step] at taken
    split at taken
    · cases taken
    · cases taken
      exact routes.submit params
  | route =>
    simp only [Pool.step] at taken
    split at taken
    · rename_i stopped channel
      exact routes.route channel taken
    · cases taken
  | cancel =>
    cases taken
    exact ⟨routes.handlers, routes.ordered⟩
  | handler account label =>
    simp only [Pool.step] at taken
    split at taken
    · cases taken
    · rename_i handler label found other
      obtain ⟨served, moved, rfl⟩ := Option.map_eq_some_iff.mp taken
      exact routes.serve found (fun params same => other params same) moved
    · cases taken

theorem routes_reachable (reached : Reachable (poolSystem config) always pool) :
    Routes config pool := by
  refine reached.invariant (Routes config) ?_ ?_
  · rintro _ rfl
    exact ⟨by simp, fun _ => rfl⟩
  · intro before label after routes _ taken
    exact routes.step taken

/-- What was submitted waits for the demultiplexer or was sent to the handler of its account. -/
theorem Routes.delivered (routes : Routes config pool) {params : SubmissionParameters}
    (submitted : params ∈ pool.submitted) :
    params ∈ pool.channel ∨ ∃ handler,
      pool.accountSenders params.nonceSubmission.accountId = some handler ∧
        params ∈ handler.routed := by
  have listed : params ∈ pool.submitted.filter (ofAccount params.nonceSubmission.accountId) :=
    List.mem_filter.mpr ⟨submitted, beq_self_eq_true _⟩
  rw [routes.ordered] at listed
  rcases List.mem_append.mp listed with waits | routed
  · exact Or.inl (List.mem_filter.mp (List.mem_reverse.mp waits)).1
  · rw [Pool.routed] at routed
    cases found : pool.accountSenders params.nonceSubmission.accountId with
    | none =>
      rw [found] at routed
      cases routed
    | some handler =>
      rw [found] at routed
      exact Or.inr ⟨handler, rfl, routed⟩

end Pools

/-- The miner's submissions to a pool, in every run: one that the demultiplexer has taken was sent
to the handler of its account, and as long as that task is there, it or a better one of the account
waits to be sent, or was answered otherwise than by a failed request. Each handler is sent what
was submitted for its account, in order, and sends nothing else. -/
theorem pool_loses_nothing (config : Config) (pool : Pool)
    (reached : Reachable (poolSystem config) always pool) :
    (∀ params ∈ pool.submitted, params ∈ pool.channel ∨ ∃ handler,
      pool.accountSenders params.nonceSubmission.accountId = some handler ∧
        params ∈ handler.routed ∧
        (handler.running = true → ∃ best ∈ handler.routed, (compare params best).isLE = true ∧
          (Live handler best ∨
            ∃ answer, (best, answer) ∈ handler.answered ∧ failed answer = none))) ∧
      ∀ account handler, pool.accountSenders account = some handler →
        pool.submitted.filter (ofAccount account) =
            (pool.channel.filter (ofAccount account)).reverse ++ handler.routed ∧
          ∀ params ∈ handler.sends, params.nonceSubmission.accountId = account ∧
            params ∈ pool.submitted := by
  have routes := routes_reachable reached
  constructor
  · intro params submitted
    rcases routes.delivered submitted with waits | ⟨handler, found, routed⟩
    · exact Or.inl waits
    · have runs := routes.handlers _ handler found
      refine Or.inr ⟨handler, found, routed, ?_⟩
      intro running
      obtain ⟨best, above, holds⟩ := nothingLost_reachable runs running params routed
      refine ⟨best, (tracked_reachable runs).best_routed holds, above, ?_⟩
      rcases holds with ⟨answer, answered, final⟩ | lives
      · refine Or.inr ⟨answer, answered, ?_⟩
        have settled := final rfl
        rw [(handleResponse_fetched best answer).1] at settled
        exact Option.not_isSome_iff_eq_none.mp (Bool.eq_false_iff.mp settled)
      · exact Or.inl lives
  · intro account handler found
    have ordered := routes.ordered account
    rw [Pool.routed, found] at ordered
    refine ⟨ordered, ?_⟩
    intro params sent
    have tracked := tracked_reachable (routes.handlers account handler found)
    have routed : params ∈ handler.routed := by
      rw [tracked.sends] at sent
      obtain ⟨yield, listed, rfl⟩ := List.mem_map.mp sent
      exact tracked.yielded yield listed
    have listed : params ∈ pool.submitted.filter (ofAccount account) := by
      rw [ordered]
      exact List.mem_append_right _ routed
    obtain ⟨submitted, own⟩ := List.mem_filter.mp listed
    exact ⟨beq_iff_eq.mp own, submitted⟩

open PrioRetry (minerConfig submission)

/-- A better quality of the same block. -/
def betterSubmission : SubmissionParameters :=
  { submission with nonceSubmission := { submission.nonceSubmission with rawQuality := 5 } }

/-- A submission of another account. -/
def otherSubmission : SubmissionParameters :=
  { submission with nonceSubmission := { submission.nonceSubmission with accountId := "01" } }

/-- The request of a submission fails when a better one of the account has come. -/
def overtaken : List PoolLabel :=
  [.submit submission, .route, .handler "00" (.poll 0), .submit otherSubmission,
    .submit betterSubmission, .route, .route,
    .handler "00" (.answer (.error (.networkError "timed out"))), .handler "00" (.poll 1)]

/-- The better one is sent behind it, the other account waits for its own handler. -/
theorem pool_loses_nothing_overtaken :
    ∃ pool, Transition.run (poolSystem minerConfig) ⟨[], fun _ => none, false, []⟩ overtaken =
        some pool ∧
      (pool.accountSenders "00").map Handler.sends = some [betterSubmission, submission] ∧
      (pool.accountSenders "01").map Handler.queue = some [otherSubmission] ∧
      (∀ params ∈ pool.submitted, params ∈ pool.channel ∨ ∃ handler,
        pool.accountSenders params.nonceSubmission.accountId = some handler ∧
          params ∈ handler.routed ∧
          (handler.running = true → ∃ best ∈ handler.routed,
            (compare params best).isLE = true ∧
              (Live handler best ∨
                ∃ answer, (best, answer) ∈ handler.answered ∧ failed answer = none))) := by
  have ran : (Transition.run (poolSystem minerConfig) ⟨[], fun _ => none, false, []⟩
      overtaken).map (fun pool => ((pool.accountSenders "00").map Handler.sends,
        (pool.accountSenders "01").map Handler.queue)) =
      some (some [betterSubmission, submission], some [otherSubmission]) := by
    decide +kernel
  obtain ⟨pool, complete, sent⟩ := Option.map_eq_some_iff.mp ran
  obtain ⟨sends, waits⟩ := Prod.mk.inj sent
  exact ⟨pool, complete, sends, waits,
    (pool_loses_nothing minerConfig pool (Reachable.run overtaken (.start rfl) complete)).1⟩

/-- The handler of an account or of the wallet, in every run: it never sends a worse submission
behind a better one, it sends no more than were routed to it and, where it requeues, requests have
failed, and it retries nothing else, whatever texts the pool answers with. -/
theorem handler_sends (config : Config) (requeues : Bool) (handler : Handler)
    (reached : Reachable (handlerSystem config requeues) always handler) :
    (handler.sends.Pairwise fun later earlier => (compare earlier later).isLE = true) ∧
      (∀ params ∈ handler.sends, params ∈ handler.routed) ∧
      handler.sends.length ≤ handler.routed.length +
        (handler.answered.filter fun sent => (failed sent.2).isSome && requeues).length ∧
      handler.callbacks.length = handler.answered.length ∧
      ∀ deadline reason, .retry deadline reason ∈ handler.callbacks →
        ∃ sent ∈ handler.answered, failed sent.2 = some reason := by
  have tracked := tracked_reachable reached
  have maximum := (PrioRetry.invariant_reachable tracked.stream).maximum
  refine ⟨?_, ?_, ?_, ?_, ?_⟩
  · rw [tracked.sends, List.pairwise_map]
    exact maximum.nondecreasing
  · rw [tracked.sends]
    intro params listed
    obtain ⟨yield, found, rfl⟩ := List.mem_map.mp listed
    exact tracked.yielded yield found
  · have counted := tracked.counted
    have delayed := tracked.delayed
    have retries : handler.retries requeues =
        (handler.answered.filter fun sent => (failed sent.2).isSome && requeues).length := by
      rw [Handler.retries]
      simp only [handleResponse_fetched]
    rw [← retries, tracked.sends, List.length_map]
    omega
  · rw [tracked.called, List.length_map]
  · intro deadline reason listed
    rw [tracked.called] at listed
    obtain ⟨sent, found, same⟩ := List.mem_map.mp listed
    exact ⟨sent, found, (handleResponse_fetched sent.1 sent.2).2 deadline reason same⟩

/-- A failed request is sent again when its delay has elapsed, and is then rejected. -/
def retried : List HandlerLabel :=
  [.arrive submission, .poll 0, .answer (.error (.networkError "timed out")), .poll 1, .elapse,
    .answer (.error .rateLimited)]

/-- It is sent twice. -/
theorem handler_sends_retried :
    ∃ handler, Transition.run (handlerSystem minerConfig true) newHandler retried = some handler ∧
      handler.sends = [submission, submission] ∧
      handler.sends.length ≤ handler.routed.length +
        (handler.answered.filter fun sent => (failed sent.2).isSome && true).length ∧
      ∀ deadline reason, .retry deadline reason ∈ handler.callbacks →
        ∃ sent ∈ handler.answered, failed sent.2 = some reason := by
  have ran : (Transition.run (handlerSystem minerConfig true) newHandler retried).map
      Handler.sends = some [submission, submission] := by
    decide +kernel
  obtain ⟨handler, complete, sends⟩ := Option.map_eq_some_iff.mp ran
  obtain ⟨-, -, counted, -, retries⟩ := handler_sends minerConfig true handler
    (Reachable.run retried (.start rfl) complete)
  exact ⟨handler, complete, sends, counted, retries⟩

end Pocx.RequestHandler
