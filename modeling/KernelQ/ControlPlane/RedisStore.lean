import KernelQ.ControlPlane.ResultConsumer
import KernelQ.ControlPlane.TickTurns

/-!
# The Redis store

`RedisIdempotencyStore` over the `RedisCliClient` of `idempotency_config.py`: a claim is
one `SET … NX EX …`, and what the server says to it passes through an exit status, a text
and a boolean. An error reply comes out as if the key had been there
(`effect_of_mem_runSets`): `redis-cli` prints it and exits with 0.
-/

namespace KernelQ.ControlPlane

open KernelQ.Foundation

/-! ## `redis-cli` -/

/-- What becomes of a `SET` with `NX`. -/
inductive ServerReply
  | stored
  | present
  | error (text : String)
  | unreachable
  deriving DecidableEq

structure CompletedProcess where
  returncode : ℤ
  stdout : String
  stderr : String

/-- The arguments are those of a `SET`, without the option `-e`. -/
def IsSet (args : List String) : Prop :=
  ∃ host port rest, args = "redis-cli" :: "-h" :: host :: "-p" :: port :: "SET" :: rest

/-- `redis-cli`, with its output not a terminal. White space around what it prints is
left open. -/
structure RedisCli where
  run : List String → ServerReply → CompletedProcess
  stored : ∀ args, IsSet args → (run args .stored).returncode = 0 ∧
    strip (run args .stored).stdout = "OK"
  present : ∀ args, IsSet args → (run args .present).returncode = 0 ∧
    strip (run args .present).stdout = ""
  error : ∀ args text, IsSet args → (run args (.error text)).returncode = 0 ∧
    strip (run args (.error text)).stdout = strip text
  unreachable : ∀ args, IsSet args → (run args .unreachable).returncode ≠ 0

structure RedisCliClient where
  host : String
  port : ℤ

namespace RedisCliClient

def args (client : RedisCliClient) (redisKey value : String) (nx : Bool) (ex : Option ℤ) :
    List String :=
  let args := ["redis-cli", "-h", client.host, "-p", String.ofList (intText client.port), "SET",
    redisKey, value]
  let args := if nx then args ++ ["NX"] else args
  match ex with
  | none => args
  | some ex => args ++ ["EX", String.ofList (intText ex)]

def set (cli : RedisCli) (client : RedisCliClient) (reply : ServerReply)
    (redisKey value : String) (nx : Bool) (ex : Option ℤ) : Except PyException Bool :=
  let result := cli.run (client.args redisKey value nx ex) reply
  if result.returncode ≠ 0 then
    let text := if strip result.stderr ≠ "" then strip result.stderr else strip result.stdout
    .error ⟨"RuntimeError", "redis-cli failed: " ++ text⟩
  else .ok (strip result.stdout = "OK")

theorem isSet_args (client : RedisCliClient) (redisKey value : String) (nx : Bool)
    (ex : Option ℤ) : IsSet (client.args redisKey value nx ex) := by
  cases nx <;> cases ex <;> exact ⟨_, _, _, rfl⟩

end RedisCliClient

structure RedisIdempotencyStore where
  client : RedisCliClient
  redisNamespace : String
  namespace_valid : strip redisNamespace ≠ ""

namespace RedisIdempotencyStore

/-- The state is how many `SET`s have been answered. -/
def tryClaim (cli : RedisCli) (redis : RedisIdempotencyStore) (answers : ℕ → ServerReply) (n : ℕ)
    (key : String) (ttlSeconds : ℤ) : Except PyException (Bool × ℕ) := do
  validateClaimInputs key ttlSeconds
  let redisKey := redis.redisNamespace ++ ":" ++ key
  let result ← redis.client.set cli (answers n) redisKey "1" true (some ttlSeconds)
  return (result, n + 1)

def store (cli : RedisCli) (redis : RedisIdempotencyStore) (answers : ℕ → ServerReply) :
    IdempotencyStore ℕ :=
  ⟨tryClaim cli redis answers⟩

end RedisIdempotencyStore

/-! ## Runs over the store -/

/-- One call over the store. -/
inductive RedisStep (η ε π : Type)
  | processMessage (handle : ResultHandler η ε) (dedupeTtlSeconds : ℤ) (message : ResultMessage)
  | runOnce (tick : SchedulerTickRunner.Tick π)

/-- What its caller does after a `SET`: it calls the handler or the producer, passes the
message or job over, or raises. -/
inductive SetEffect
  | called
  | suppressed
  | raised
  deriving DecidableEq

structure SetCall where
  answer : ServerReply
  effect : SetEffect
  deriving DecidableEq

/-- The `SET` of a message, if it comes to that. -/
def messageSets {ε : Type} (answers : ℕ → ServerReply) (ttlSeconds : ℤ) :
    Outcome ε → List SetCall
  | .rejected _ => []
  | .noKey _ => []
  | .storeFailed _ => if 0 < ttlSeconds then [⟨answers 0, .raised⟩] else []
  | .duplicate => [⟨answers 0, .suppressed⟩]
  | .handled _ => [⟨answers 0, .called⟩]

/-- The `SET` of a claimed job, if it comes to that. -/
def turnSets (answers : ℕ → ServerReply) (x : SchedulerTickRunner.Turn ℕ) : List SetCall :=
  match x.outcome with
  | .published => [⟨answers x.store, .called⟩]
  | .publishFailed _ => [⟨answers x.store, .called⟩]
  | .duplicate => [⟨answers x.store, .suppressed⟩]
  | .raised _ =>
      if strip x.job.jobId ≠ "" ∧ 0 < x.ttlSeconds then [⟨answers x.store, .raised⟩] else []
  | .unreached => []

/-- The `SET`s that the calls of a run send, each call with the answers to its own. -/
def runSets {η ε π : Type} (cli : RedisCli) (redis : RedisIdempotencyStore) (repr : Json → String) :
    ResultConsumerRunner ℕ η → π → List (RedisStep η ε π × (ℕ → ServerReply)) → List SetCall
  | _, _, [] => []
  | runner, producer, (.processMessage handle ttlSeconds message, answers) :: steps =>
      let r := ResultConsumerRunner.processMessage (redis.store cli answers) handle repr ttlSeconds
        { runner with store := 0 } message
      messageSets answers ttlSeconds r.2 ++ runSets cli redis repr r.1 producer steps
  | runner, producer, (.runOnce tick, answers) :: steps =>
      let w : SchedulerTickRunner.World ℕ π := ⟨tick.jobs, 0, producer⟩
      let turns := SchedulerTickRunner.tickTurns (redis.store cli answers) tick.producer tick.runner
        tick.executor tick.now w
      let w' := (SchedulerTickRunner.runOnce (redis.store cli answers) tick.producer tick.runner
        tick.executor tick.now w).1
      turns.flatMap (turnSets answers) ++ runSets cli redis repr runner w'.producer steps

/-- No failure is taken for a duplicate. -/
structure FailuresSurface (sets : List SetCall) : Prop where
  suppressed : ∀ c ∈ sets, c.effect = .suppressed → c.answer = .present
  error : ∀ c ∈ sets, ∀ text, c.answer = .error text → c.effect = .raised

/-! ## What an answer comes to -/

/-- An error reply is read as if it were no error. -/
def ServerReply.effect : ServerReply → SetEffect
  | .stored => .called
  | .present => .suppressed
  | .error text => if strip text = "OK" then .called else .suppressed
  | .unreachable => .raised

/-- What the caller of a claim makes of it. -/
def SetEffect.ofClaim : Except PyException (Bool × ℕ) → SetEffect
  | .ok (true, _) => .called
  | .ok (false, _) => .suppressed
  | .error _ => .raised

/-- **One `SET`**: its boolean, or the exception. -/
theorem set_spec (cli : RedisCli) (client : RedisCliClient) (reply : ServerReply)
    (redisKey value : String) (nx : Bool) (ex : Option ℤ) (n : ℕ) :
    SetEffect.ofClaim ((client.set cli reply redisKey value nx ex).map fun b => (b, n)) =
      reply.effect := by
  have hset := client.isSet_args redisKey value nx ex
  cases reply with
  | stored =>
      obtain ⟨hcode, hout⟩ := cli.stored _ hset
      simp [ServerReply.effect, RedisCliClient.set, hcode, hout, Except.map, SetEffect.ofClaim]
  | present =>
      obtain ⟨hcode, hout⟩ := cli.present _ hset
      simp [ServerReply.effect, RedisCliClient.set, hcode, hout, Except.map, SetEffect.ofClaim]
  | error text =>
      obtain ⟨hcode, hout⟩ := cli.error _ text hset
      by_cases hok : strip text = "OK"
      · simp [ServerReply.effect, RedisCliClient.set, hcode, hout, hok, Except.map,
          SetEffect.ofClaim]
      · simp [ServerReply.effect, RedisCliClient.set, hcode, hout, hok, Except.map,
          SetEffect.ofClaim]
  | unreachable =>
      have hcode := cli.unreachable _ hset
      simp [ServerReply.effect, RedisCliClient.set, hcode, Except.map, SetEffect.ofClaim]

/-- **One claim** that is valid. -/
theorem redis_tryClaim (cli : RedisCli) (redis : RedisIdempotencyStore)
    (answers : ℕ → ServerReply) (n : ℕ) {key : String} {ttlSeconds : ℤ} (hkey : strip key ≠ "")
    (httl : 0 < ttlSeconds) :
    SetEffect.ofClaim ((redis.store cli answers).tryClaim n key ttlSeconds) =
      (answers n).effect := by
  rw [← set_spec cli redis.client (answers n) (redis.redisNamespace ++ ":" ++ key) "1" true
    (some ttlSeconds) (n + 1)]
  show SetEffect.ofClaim (redis.tryClaim cli answers n key ttlSeconds) = _
  rw [RedisIdempotencyStore.tryClaim, validateClaimInputs_ok hkey httl]
  simp only [bind, Except.bind]
  cases redis.client.set cli (answers n) (redis.redisNamespace ++ ":" ++ key) "1" true
    (some ttlSeconds) with
  | ok b => rfl
  | error e => rfl

/-- A claim with no TTL is refused before it is sent. -/
theorem redis_tryClaim_invalid (cli : RedisCli) (redis : RedisIdempotencyStore)
    (answers : ℕ → ServerReply) (n : ℕ) {key : String} {ttlSeconds : ℤ} (hkey : strip key ≠ "")
    (httl : ¬ 0 < ttlSeconds) :
    ∃ e, (redis.store cli answers).tryClaim n key ttlSeconds = .error e := by
  refine ⟨valueError "ttl_seconds must be a positive integer", ?_⟩
  show redis.tryClaim cli answers n key ttlSeconds = _
  rw [RedisIdempotencyStore.tryClaim, validateClaimInputs, if_neg hkey, if_pos (not_lt.mp httl)]
  rfl

section Effects

variable {η ε π : Type} {cli : RedisCli} {redis : RedisIdempotencyStore}
  {answers : ℕ → ServerReply} {repr : Json → String} {c : SetCall}

theorem effect_of_mem_messageSets {handle : ResultHandler η ε} {ttlSeconds : ℤ}
    {message : ResultMessage} {runner : ResultConsumerRunner ℕ η} (hrunner : runner.store = 0)
    (hc : c ∈ messageSets answers ttlSeconds (ResultConsumerRunner.processMessage
      (redis.store cli answers) handle repr ttlSeconds runner message).2) :
    c.effect = c.answer.effect := by
  unfold ResultConsumerRunner.processMessage at hc
  cases hparse : parseWorkerResultEvent repr message.value with
  | error e =>
      rw [hparse] at hc
      cases hc
  | ok event =>
      cases hkey : workerResultKey event.jobId event.attempt with
      | error e =>
          simp only [hparse, hkey] at hc
          cases hc
      | ok key =>
          by_cases httl : 0 < ttlSeconds
          · have heffect := redis_tryClaim cli redis answers 0 (strip_key_ne hkey) httl
            rcases hclaim : (redis.store cli answers).tryClaim 0 key ttlSeconds with
              e | ⟨_ | _, store⟩
            all_goals rw [hclaim, SetEffect.ofClaim] at heffect
            · simp only [hparse, hkey, hrunner, hclaim, messageSets, if_pos httl,
                List.mem_singleton] at hc
              rw [hc, heffect]
            · simp only [hparse, hkey, hrunner, hclaim, messageSets, List.mem_singleton] at hc
              rw [hc, heffect]
            · simp only [hparse, hkey, hrunner, hclaim] at hc
              rcases hhandle : handle runner.handler event with ⟨handler, e | u⟩
              all_goals
                simp only [hhandle, messageSets, List.mem_singleton] at hc
                rw [hc, heffect]
          · -- nothing is sent, so there is no answer to account for
            obtain ⟨e, he⟩ := redis_tryClaim_invalid cli redis answers 0 (strip_key_ne hkey) httl
            simp only [hparse, hkey, hrunner, he, messageSets, if_neg httl] at hc
            cases hc

open SchedulerTickRunner in
theorem effect_of_mem_turnSets {P : JobProducer π} {runner : SchedulerTickRunner} {l : Loop ℕ π}
    {jobs : List JobRecord} {x : Turn ℕ} (hx : x ∈ turns (redis.store cli answers) P runner l jobs)
    (hc : c ∈ turnSets answers x) : c.effect = c.answer.effect := by
  obtain ⟨job, ttlSeconds, store, outcome⟩ := x
  obtain ⟨httl, hunreached | ⟨l', hstore, houtcome⟩⟩ := turn_of_mem hx
  · simp only at hunreached
    rw [turnSets, hunreached] at hc
    cases hc
  · simp only at httl hstore houtcome
    subst httl hstore houtcome
    cases hkey : dispatchKey job.jobId (.int job.retryCount) with
    | error e =>
        -- the id is blank, and no `SET` is sent
        have hblank : strip job.jobId = "" := by
          by_contra hid
          rw [dispatchKey, attemptKey_of_not_blank "dispatch" hid] at hkey
          cases hkey
        simp only [turnSets, turnOutcome, hkey, hblank, ne_eq, not_true_eq_false, false_and,
          if_false] at hc
        cases hc
    | ok key =>
        have hid : strip job.jobId ≠ "" := (attemptKey_eq_ok_iff.mp hkey).1
        by_cases httl : 0 < runner.dispatchDedupeTtlSeconds
        · have heffect := redis_tryClaim cli redis answers l'.store (strip_key_ne hkey) httl
          rcases hclaim : (redis.store cli answers).tryClaim l'.store key
            runner.dispatchDedupeTtlSeconds with e | ⟨_ | _, store⟩
          all_goals rw [hclaim, SetEffect.ofClaim] at heffect
          · simp only [turnSets, turnOutcome, hkey, hclaim, if_pos (And.intro hid httl),
              List.mem_singleton] at hc
            rw [hc, heffect]
          · simp only [turnSets, turnOutcome, hkey, hclaim, List.mem_singleton] at hc
            rw [hc, heffect]
          · rcases hpublish : (P.publish l'.producer (.ofJob job)).2 with e | u
            all_goals
              simp only [turnSets, turnOutcome, hkey, hclaim, hpublish, List.mem_singleton] at hc
              rw [hc, heffect]
        · obtain ⟨e, he⟩ :=
            redis_tryClaim_invalid cli redis answers l'.store (strip_key_ne hkey) httl
          simp only [turnSets, turnOutcome, hkey, he,
            if_neg (fun h : strip job.jobId ≠ "" ∧ 0 < runner.dispatchDedupeTtlSeconds =>
              httl h.2)] at hc
          cases hc

/-- **Over a run**, every `SET` comes to what its answer comes to. -/
theorem effect_of_mem_runSets {runner : ResultConsumerRunner ℕ η} {producer : π}
    {steps : List (RedisStep η ε π × (ℕ → ServerReply))}
    (hc : c ∈ runSets cli redis repr runner producer steps) : c.effect = c.answer.effect := by
  induction steps generalizing runner producer with
  | nil => cases hc
  | cons s steps ih =>
      obtain ⟨step, answers⟩ := s
      cases step with
      | processMessage handle ttlSeconds message =>
          rw [runSets] at hc
          rcases List.mem_append.mp hc with hc | hc
          · exact effect_of_mem_messageSets rfl hc
          · exact ih hc
      | runOnce tick =>
          rw [runSets] at hc
          rcases List.mem_append.mp hc with hc | hc
          · obtain ⟨x, hx, hc⟩ := List.mem_flatMap.mp hc
            exact effect_of_mem_turnSets hx hc
          · exact ih hc

/-- A message is passed over on any answer that reads like that of a present key. -/
theorem suppressed_mem_runSets {handle : ResultHandler η ε} {ttlSeconds : ℤ}
    {message : ResultMessage} {event : WorkerResultEvent} {key : String}
    (hparse : parseWorkerResultEvent repr message.value = .ok event)
    (hkey : workerResultKey event.jobId event.attempt = .ok key) (httl : 0 < ttlSeconds)
    (heffect : (answers 0).effect = .suppressed) (runner : ResultConsumerRunner ℕ η) (producer : π)
    (steps : List (RedisStep η ε π × (ℕ → ServerReply))) :
    ⟨answers 0, .suppressed⟩ ∈ runSets cli redis repr runner producer
      ((.processMessage handle ttlSeconds message, answers) :: steps) := by
  have hclaim := redis_tryClaim cli redis answers 0 (strip_key_ne hkey) httl
  rw [heffect] at hclaim
  rcases hanswer : (redis.store cli answers).tryClaim 0 key ttlSeconds with e | ⟨_ | _, store⟩
  · rw [hanswer] at hclaim
    cases hclaim
  · rw [runSets]
    apply List.mem_append_left
    simp only [ResultConsumerRunner.processMessage, hparse, hkey, hanswer, messageSets]
    exact List.mem_cons_self
  · rw [hanswer] at hclaim
    cases hclaim

end Effects

/-- **When failures surface**: exactly if the server answers no `SET` of the run with an
error reply. -/
theorem failures_surface_iff {η ε π : Type} (cli : RedisCli) (redis : RedisIdempotencyStore)
    (repr : Json → String) (runner : ResultConsumerRunner ℕ η) (producer : π)
    (steps : List (RedisStep η ε π × (ℕ → ServerReply))) :
    FailuresSurface (runSets cli redis repr runner producer steps) ↔
      ∀ c ∈ runSets cli redis repr runner producer steps, ∀ text, c.answer ≠ .error text := by
  constructor
  · intro h c hc text herror
    have heffect := effect_of_mem_runSets hc
    rw [h.error c hc text herror, herror, ServerReply.effect] at heffect
    split at heffect
    · cases heffect
    · cases heffect
  · intro h
    constructor
    case suppressed =>
      intro c hc hsuppressed
      have heffect := effect_of_mem_runSets hc
      rw [hsuppressed] at heffect
      cases hanswer : c.answer with
      | present => rfl
      | error text => exact absurd hanswer (h c hc text)
      | stored | unreachable =>
          rw [hanswer] at heffect
          cases heffect
    case error =>
      intro c hc text herror
      exact absurd herror (h c hc text)

/-! ## A server that is loading -/

/-- What `redis-cli` prints. -/
def documentedCli : RedisCli where
  run
    | _, .stored => ⟨0, "OK\n", ""⟩
    | _, .present => ⟨0, "\n", ""⟩
    | _, .error text => ⟨0, text ++ "\n", ""⟩
    | _, .unreachable => ⟨1, "", "Could not connect to Redis: Connection refused\n"⟩
  stored _ _ := ⟨rfl, show strip "OK\n" = "OK" by decide +kernel⟩
  present _ _ := ⟨rfl, show strip "\n" = "" by decide +kernel⟩
  error _ text _ := by
    refine ⟨rfl, trim_append_of_all text ?_⟩
    intro c hc
    obtain rfl : c = '\n' := by simpa using hc
    decide +kernel
  unreachable _ _ := show (1 : ℤ) ≠ 0 by decide

def localRedis : RedisIdempotencyStore :=
  ⟨⟨"localhost", 6379⟩, "kernelq:idempotency", by decide +kernel⟩

/-- A result comes while Redis loads its data. -/
def loadingRun : List (RedisStep ℕ String Unit × (ℕ → ServerReply)) :=
  [(.processMessage Outage.handle defaultDedupeTtlSeconds Outage.message,
    fun _ => .error "LOADING Redis is loading the dataset in memory")]

/-- The result is passed over as a duplicate. -/
theorem loading_taken_for_duplicate :
    ¬ FailuresSurface
      (runSets documentedCli localRedis (fun _ => "") ⟨0, 0, 0, 0⟩ () loadingRun) := by
  have hmem : ⟨.error "LOADING Redis is loading the dataset in memory", .suppressed⟩ ∈
      runSets documentedCli localRedis (fun _ => "") ⟨0, 0, 0, 0⟩ () loadingRun :=
    suppressed_mem_runSets (Outage.message_parsed _) Outage.key_eq (by decide) (by decide +kernel)
      _ _ []
  intro h
  have hpresent := h.suppressed _ hmem rfl
  cases hpresent

end KernelQ.ControlPlane
