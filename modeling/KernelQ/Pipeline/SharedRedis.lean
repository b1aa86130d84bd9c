import KernelQ.ControlPlane.RedisStore
import KernelQ.Foundation.Leases
import KernelQ.Pipeline.DispatchContract
import KernelQ.Worker.RedisIdempotency

/-!
# One Redis for all

The control plane claims through `redis-cli`, the workers through a client library, each
under a namespace of its own, and one server answers them all. Whatever the server does,
two claims of one key that both succeed are a lifetime apart. Where no namespace runs on
into another, each store is a store of its own, to a caller whose key had no reply lost
before (`own_stores_iff`); and so it is where all are built from one environment
(`shared_redis`).
-/

namespace KernelQ.ControlPlane

def envRedisNamespace : String := "KERNELQ_REDIS_NAMESPACE"

def defaultRedisNamespace : String := "kernelq:idempotency"

/-- The namespace in `build_idempotency_store_from_env`. -/
def redisNamespaceFromEnv (env : String → Option String) : String :=
  let redisNamespace := strip ((env envRedisNamespace).getD defaultRedisNamespace)
  if redisNamespace = "" then defaultRedisNamespace else redisNamespace

end KernelQ.ControlPlane

namespace KernelQ.Pipeline

open KernelQ.Foundation KernelQ.ControlPlane

namespace SharedRedis

/-- What a server does with `SET key … NX` and a lifetime. No key is deleted or evicted. -/
structure RedisServer where
  State : Type
  start : State
  /-- The key exists at a time. -/
  Exists : State → ℚ → String → Prop
  /-- At a time, with a key and its lifetime, the reply and the state afterwards. -/
  Set : State → ℚ → String → ℚ → ServerReply → State → Prop
  start_empty : ∀ t k, ¬ Exists start t k
  stored : ∀ s t key lifetime s', Set s t key lifetime .stored s' → ¬ Exists s t key ∧
    ∀ t' k, t ≤ t' → (Exists s' t' k ↔ if k = key then t' < t + lifetime else Exists s t' k)
  present : ∀ s t key lifetime s', Set s t key lifetime .present s' → Exists s t key ∧
    ∀ t' k, t ≤ t' → (Exists s' t' k ↔ Exists s t' k)
  error : ∀ s t key lifetime text s', Set s t key lifetime (.error text) s' →
    strip text ≠ "OK" ∧ ∀ t' k, t ≤ t' → (Exists s' t' k ↔ Exists s t' k)
  /-- The request is lost on its way, or the reply is. -/
  unreachable : ∀ s t key lifetime s', Set s t key lifetime .unreachable s' →
    Set s t key lifetime .stored s' ∨ Set s t key lifetime .present s' ∨
      ∀ t' k, t ≤ t' → (Exists s' t' k ↔ Exists s t' k)

/-- The client library: what `SetNX` returns for a reply, and the lifetime, in seconds, that
it asks for. -/
structure RedisLibrary where
  setNX : ServerReply → Except String Bool
  lifetime : ℤ → ℚ
  stored : setNX .stored = .ok true
  present : setNX .present = .ok false
  error : ∀ text, ∃ e, setNX (.error text) = .error e
  unreachable : ∃ e, setNX .unreachable = .error e
  lifetime_pos : ∀ d, 0 < d → 0 < lifetime d

inductive Claimant
  | controlPlane (cli : RedisCli) (redis : ControlPlane.RedisIdempotencyStore)
  | worker (redis : Worker.RedisIdempotencyStore)

def Claimant.redisNamespace : Claimant → String
  | controlPlane _ redis => redis.redisNamespace
  | worker redis => redis.redisNamespace

/-- A call of `try_claim` or `TryClaim`, and the reply to its `SET`, if it sends one. -/
structure Exchange where
  time : ℚ
  claimant : Claimant
  key : String
  /-- In seconds, or in nanoseconds. -/
  ttl : ℤ
  reply : ServerReply

namespace Exchange

/-- The arguments are accepted, and the `SET` is sent. -/
def Sent (e : Exchange) : Prop :=
  match e.claimant with
  | .controlPlane _ _ => strip e.key ≠ "" ∧ 0 < e.ttl
  | .worker _ => Worker.trimSpace e.key ≠ "" ∧ 0 < e.ttl

def redisKey (e : Exchange) : String := e.claimant.redisNamespace ++ ":" ++ e.key

variable (library : RedisLibrary)

def lifetime (e : Exchange) : ℚ :=
  match e.claimant with
  | .controlPlane _ _ => e.ttl
  | .worker _ => library.lifetime e.ttl

/-- What the caller is told; `none` is an exception, or an error. -/
def answer (e : Exchange) : Option Bool :=
  match e.claimant with
  | .controlPlane cli redis =>
      (redis.tryClaim cli (fun _ => e.reply) 0 e.key e.ttl).toOption.map Prod.fst
  | .worker redis => (redis.tryClaim (fun _ _ _ => library.setNX e.reply) e.key e.ttl).toOption

def lease (e : Exchange) : Lease String ℚ := ⟨e.redisKey, e.time, e.time + e.lifetime library⟩

/-- The two are about one claim. -/
def SameKey (e e' : Exchange) : Prop :=
  e.claimant.redisNamespace = e'.claimant.redisNamespace ∧ e.key = e'.key

/-- The server has said whether it set the key. -/
def Served (e : Exchange) : Prop := e.reply = .stored ∨ e.reply = .present

def Happens (server : RedisServer) (e : Exchange) (s s' : server.State) : Prop :=
  ¬ e.Sent ∧ s' = s ∨
    e.Sent ∧ server.Set s e.time e.redisKey (e.lifetime library) e.reply s'

end Exchange

/-- The exchanges happen one after the other. -/
def Serves (library : RedisLibrary) (server : RedisServer) :
    server.State → List Exchange → server.State → Prop
  | s, [], s' => s' = s
  | s, e :: es, s' => ∃ s₁, e.Happens library server s s₁ ∧ Serves library server s₁ es s'

/-- The clock of the server does not run backwards. -/
def Clocked (log : List Exchange) : Prop := (log.map Exchange.time).Pairwise (· ≤ ·)

/-- Two claims of one key that both succeed are a lifetime apart. -/
def Exclusive (library : RedisLibrary) (log : List Exchange) : Prop :=
  ∀ pre e mid e' post, log = pre ++ e :: mid ++ e' :: post → e.SameKey e' →
    e.answer library = some true → e'.answer library = some true →
    e.time + e.lifetime library ≤ e'.time

/-- A claim that the server answers succeeds exactly if all that have succeeded before, for its
namespace and its key, have expired; unless the reply to one of these was lost. -/
def OwnStores (library : RedisLibrary) (log : List Exchange) : Prop :=
  ∀ pre e post, log = pre ++ e :: post → e.Sent → e.Served →
    (∀ e' ∈ pre, e'.SameKey e → e'.Sent → e'.reply ≠ .unreachable) →
    ∃ claimed, e.answer library = some claimed ∧
      (claimed = true ↔ ∀ e' ∈ pre, e'.SameKey e → e'.answer library = some true →
        e'.time + e'.lifetime library ≤ e.time)

/-- The namespace is the one that its process reads from the environment. -/
def Claimant.BuiltFrom (env : String → Option String) : Claimant → Prop
  | controlPlane _ redis => redis.redisNamespace = ControlPlane.redisNamespaceFromEnv env
  | worker redis => redis.redisNamespace = Worker.redisNamespaceFromEnv env

/-- Every `SET` is answered by setting the key, or by finding it there. -/
def RedisServer.Responsive (server : RedisServer) : Prop :=
  ∀ s t key lifetime, ∃ reply s', (reply = .stored ∨ reply = .present) ∧
    server.Set s t key lifetime reply s'

/-- They are one, or neither runs on into the other. -/
def Separate (a b : String) : Prop :=
  a = b ∨ ¬ (a ++ ":").toList <+: (b ++ ":").toList ∧ ¬ (b ++ ":").toList <+: (a ++ ":").toList

/-! ## What callers are told -/

/-- What the caller of `try_claim` is told. -/
def told : SetEffect → Option Bool
  | .called => some true
  | .suppressed => some false
  | .raised => none

theorem told_ofClaim (x : Except PyException (Bool × ℕ)) :
    x.toOption.map Prod.fst = told (SetEffect.ofClaim x) := by
  rcases x with e | ⟨_ | _, n⟩ <;> rfl

namespace Exchange

variable {library : RedisLibrary} {e e' : Exchange}

/-- Nothing is sent, and the caller has an exception. -/
theorem answer_of_not_sent (h : ¬ e.Sent) : e.answer library = none := by
  obtain ⟨time, claimant, key, ttl, reply⟩ := e
  cases claimant with
  | worker redis => exact Worker.RedisIdempotencyStore.tryClaim_invalid h
  | controlPlane cli redis =>
      change ¬ (strip key ≠ "" ∧ 0 < ttl) at h
      show (redis.tryClaim cli (fun _ => reply) 0 key ttl).toOption.map Prod.fst = none
      rw [ControlPlane.RedisIdempotencyStore.tryClaim, ControlPlane.validateClaimInputs]
      by_cases hkey : strip key = ""
      · rw [if_pos hkey]
        rfl
      · rw [if_neg hkey, if_pos (not_lt.mp fun httl => h ⟨hkey, httl⟩)]
        rfl

variable (library) in
/-- **What the caller is told** of what the server has said. An error that `redis-cli` prints
is taken for a key that was there. -/
theorem answer_of_sent (h : e.Sent) :
    (e.reply = .stored → e.answer library = some true) ∧
      (e.reply = .present → e.answer library = some false) ∧
      (e.reply = .unreachable → e.answer library = none) ∧
      ∀ text, e.reply = .error text → strip text ≠ "OK" → e.answer library ≠ some true := by
  obtain ⟨time, claimant, key, ttl, reply⟩ := e
  cases claimant with
  | worker redis =>
      have hanswer : answer library ⟨time, .worker redis, key, ttl, reply⟩ =
          (library.setNX reply).toOption :=
        Worker.RedisIdempotencyStore.tryClaim_valid h.1 h.2
      rw [hanswer]
      refine ⟨?_, ?_, ?_, ?_⟩
      · rintro rfl
        rw [library.stored]
        rfl
      · rintro rfl
        rw [library.present]
        rfl
      · rintro rfl
        obtain ⟨message, hmessage⟩ := library.unreachable
        rw [hmessage]
        rfl
      · rintro text rfl - htrue
        obtain ⟨message, hmessage⟩ := library.error text
        rw [hmessage] at htrue
        cases htrue
  | controlPlane cli redis =>
      have hanswer : answer library ⟨time, .controlPlane cli redis, key, ttl, reply⟩ =
          told reply.effect :=
        (told_ofClaim _).trans (congrArg told (redis_tryClaim cli redis (fun _ => reply) 0 h.1 h.2))
      rw [hanswer]
      refine ⟨?_, ?_, ?_, ?_⟩
      · rintro rfl
        rfl
      · rintro rfl
        rfl
      · rintro rfl
        rfl
      · rintro text rfl hok htrue
        rw [ServerReply.effect, if_neg hok] at htrue
        cases htrue

/-- **Only a key that was set** is a claim that succeeds. -/
theorem stored_of_answer (h : e.answer library = some true)
    (herror : ∀ text, e.reply = .error text → strip text ≠ "OK") :
    e.Sent ∧ e.reply = .stored := by
  have hsent : e.Sent := by
    by_contra hsent
    rw [answer_of_not_sent hsent] at h
    cases h
  obtain ⟨-, hpresent, hunreachable, htext⟩ := answer_of_sent library hsent
  refine ⟨hsent, ?_⟩
  cases hreply : e.reply with
  | stored => rfl
  | present =>
      rw [hpresent hreply] at h
      cases h
  | error text => exact absurd h (htext text hreply (herror text hreply))
  | unreachable =>
      rw [hunreachable hreply] at h
      cases h

theorem lifetime_pos (h : e.Sent) : 0 < e.lifetime library := by
  obtain ⟨time, claimant, key, ttl, reply⟩ := e
  cases claimant with
  | controlPlane cli redis => exact Int.cast_pos.mpr h.2
  | worker redis => exact library.lifetime_pos ttl h.2

theorem SameKey.redisKey (h : e.SameKey e') : e.redisKey = e'.redisKey := by
  rw [Exchange.redisKey, Exchange.redisKey, h.1, h.2]

end Exchange

/-! ## A server in memory -/

/-- A dict of expiry times. -/
def memoryServer : RedisServer where
  State := ExpiryByKey
  start := []
  Exists s t key := ¬ Unclaimed s key t
  Set s t key lifetime reply s' :=
    reply = .stored ∧ Unclaimed s key t ∧
        s' = InMemoryIdempotencyStore.setExpiry s key (t + lifetime) ∨
      reply = .present ∧ ¬ Unclaimed s key t ∧ s' = s
  start_empty t key h := h fun expiry hlookup => by cases hlookup
  stored s t key lifetime s' h := by
    rcases h with ⟨-, hfree, rfl⟩ | ⟨hreply, -⟩
    · refine ⟨not_not.mpr hfree, ?_⟩
      intro t' k ht'
      by_cases hk : k = key
      · subst hk
        rw [if_pos rfl, Unclaimed, lookup_setExpiry_self, ← not_le, not_iff_not]
        exact ⟨fun h => h _ rfl, fun h expiry he => by rwa [← Option.some.inj he]⟩
      · rw [if_neg hk, Unclaimed, lookup_setExpiry_of_ne s hk]
        rfl
    · cases hreply
  present s t key lifetime s' h := by
    rcases h with ⟨hreply, -⟩ | ⟨-, hheld, rfl⟩
    · cases hreply
    · exact ⟨hheld, fun _ _ _ => Iff.rfl⟩
  error s t key lifetime text s' h := by
    rcases h with ⟨hreply, -⟩ | ⟨hreply, -⟩ <;> cases hreply
  unreachable s t key lifetime s' h := by
    rcases h with ⟨hreply, -⟩ | ⟨hreply, -⟩ <;> cases hreply

theorem memoryServer_responsive : memoryServer.Responsive := by
  intro s t key lifetime
  by_cases hfree : Unclaimed s key t
  · exact ⟨_, _, Or.inl rfl, Or.inl ⟨rfl, hfree, rfl⟩⟩
  · exact ⟨_, _, Or.inr rfl, Or.inr ⟨rfl, hfree, rfl⟩⟩

/-- Whole seconds go as `EX`, all else as `PX`. -/
def goRedis : RedisLibrary where
  setNX
    | .stored => .ok true
    | .present => .ok false
    | .error text => .error text
    | .unreachable => .error "connection refused"
  lifetime d := if d % 1000000000 = 0 then d / 1000000000 else max 1 (d / 1000000 : ℤ) / 1000
  stored := rfl
  present := rfl
  error text := ⟨text, rfl⟩
  unreachable := ⟨_, rfl⟩
  lifetime_pos d hd := by
    split
    · exact div_pos (Int.cast_pos.mpr hd) (by norm_num)
    · exact div_pos (Int.cast_pos.mpr (lt_max_of_lt_left Int.one_pos)) (by norm_num)

/-- The control plane claims a key for a minute, is refused it, and a worker has it next. -/
def handedOver : List Exchange :=
  [⟨0, .controlPlane documentedCli localRedis, "key", 60, .stored⟩,
    ⟨59, .controlPlane documentedCli localRedis, "key", 60, .present⟩,
    ⟨60, .worker ⟨"kernelq:idempotency", by decide +kernel⟩, "key", 1000000000, .stored⟩]

theorem clocked_handedOver : Clocked handedOver := by
  unfold Clocked
  decide +kernel

theorem serves_handedOver :
    ∃ s, Serves goRedis memoryServer memoryServer.start handedOver s := by
  have hfree : Unclaimed ([] : ExpiryByKey) "kernelq:idempotency:key" 0 := fun _ h => by cases h
  have hlookup : ([("kernelq:idempotency:key", 0 + ((60 : ℤ) : ℚ))] : ExpiryByKey).lookup
      "kernelq:idempotency:key" = some (0 + ((60 : ℤ) : ℚ)) := List.lookup_cons_self
  have hheld : ¬ Unclaimed [("kernelq:idempotency:key", 0 + ((60 : ℤ) : ℚ))] "kernelq:idempotency:key"
      59 := fun h => absurd (h _ hlookup) (by norm_num)
  have hfree' : Unclaimed [("kernelq:idempotency:key", 0 + ((60 : ℤ) : ℚ))] "kernelq:idempotency:key"
      60 := by
    intro expiry h
    rw [hlookup] at h
    rw [← Option.some.inj h]
    norm_num
  have hkey : strip "key" ≠ "" := by decide +kernel
  have hkey' : Worker.trimSpace "key" ≠ "" := by decide +kernel
  exact ⟨_, _, Or.inr ⟨⟨hkey, by decide⟩, Or.inl ⟨rfl, hfree, rfl⟩⟩, _,
    Or.inr ⟨⟨hkey, by decide⟩, Or.inr ⟨rfl, hheld, rfl⟩⟩, _,
    Or.inr ⟨⟨hkey', by decide⟩, Or.inl ⟨rfl, hfree', rfl⟩⟩, rfl⟩

/-! ## The server -/

section

variable {library : RedisLibrary} {server : RedisServer} {s s' : server.State}
  {log pre post : List Exchange} {e : Exchange}

theorem serves_append : Serves library server s (pre ++ post) s' ↔
    ∃ s₁, Serves library server s pre s₁ ∧ Serves library server s₁ post s' := by
  induction pre generalizing s with
  | nil =>
      constructor
      · exact fun h => ⟨s, rfl, h⟩
      · rintro ⟨s₁, rfl, h⟩
        exact h
  | cons e pre ih =>
      constructor
      · rintro ⟨s₁, he, hrest⟩
        obtain ⟨s₂, hpre, hpost⟩ := ih.mp hrest
        exact ⟨s₂, ⟨s₁, he, hpre⟩, hpost⟩
      · rintro ⟨s₂, ⟨s₁, he, hpre⟩, hpost⟩
        exact ⟨s₁, he, ih.mpr ⟨s₂, hpre, hpost⟩⟩

variable (library) in
/-- What a `SET` may do: nothing, or it writes the key. -/
inductive Effect (e : Exchange) (s s' : server.State) : Prop
  | same (hreply : e.reply ≠ .stored)
      (h : ∀ t k, e.time ≤ t → (server.Exists s' t k ↔ server.Exists s t k))
  | written (hreply : e.reply = .stored ∨ e.reply = .unreachable)
      (hfree : ¬ server.Exists s e.time e.redisKey)
      (h : ∀ t k, e.time ≤ t → (server.Exists s' t k ↔
        if k = e.redisKey then t < e.time + e.lifetime library else server.Exists s t k))

theorem effect_of_set
    (h : server.Set s e.time e.redisKey (e.lifetime library) e.reply s') :
    Effect library e s s' := by
  have hstored : server.Set s e.time e.redisKey (e.lifetime library) .stored s' →
      e.reply = .stored ∨ e.reply = .unreachable → Effect library e s s' := fun h hreply =>
    .written hreply (server.stored _ _ _ _ _ h).1 (server.stored _ _ _ _ _ h).2
  cases hreply : e.reply with
  | stored => exact hstored (hreply ▸ h) (Or.inl hreply)
  | present =>
      rw [hreply] at h
      exact .same (fun hs => by cases hreply.symm.trans hs) (server.present _ _ _ _ _ h).2
  | error text =>
      rw [hreply] at h
      exact .same (fun hs => by cases hreply.symm.trans hs) (server.error _ _ _ _ _ _ h).2
  | unreachable =>
      rw [hreply] at h
      have hne : e.reply ≠ .stored := fun hs => by cases hreply.symm.trans hs
      rcases server.unreachable _ _ _ _ _ h with h | h | h
      · exact hstored h (Or.inr hreply)
      · exact .same hne (server.present _ _ _ _ _ h).2
      · exact .same hne h

variable (library) in
/-- `applied` are the leases that the server has given away. -/
structure Tracks (log : List Exchange) (s : server.State) (applied : List (Lease String ℚ)) :
    Prop where
  exists_iff : ∀ t k, (∀ e ∈ log, e.time ≤ t) →
    (server.Exists s t k ↔ ¬ Lease.Free applied k t)
  granted : ∀ e ∈ log, e.answer library = some true → e.lease library ∈ applied
  /-- Their callers know of them, unless the reply was lost. -/
  known : ∀ l ∈ applied, ∃ e ∈ log, e.lease library = l ∧
    (e.answer library = some true ∨ e.Sent ∧ e.reply = .unreachable)

/-- An error reply is not `OK`. -/
theorem error_text (h : e.Happens library server s s') (hsent : e.Sent) :
    ∀ text, e.reply = .error text → strip text ≠ "OK" := by
  intro text htext
  rcases h with ⟨hnot, -⟩ | ⟨-, hset⟩
  · exact absurd hsent hnot
  · rw [htext] at hset
    exact (server.error _ _ _ _ _ _ hset).1

theorem Happens.stored_of_answer (h : e.Happens library server s s')
    (hanswer : e.answer library = some true) :
    e.Sent ∧ e.reply = .stored ∧ ¬ server.Exists s e.time e.redisKey := by
  have hsent : e.Sent := by
    by_contra hsent
    rw [Exchange.answer_of_not_sent hsent] at hanswer
    cases hanswer
  have hreply := (Exchange.stored_of_answer hanswer (error_text h hsent)).2
  rcases h with ⟨hnot, -⟩ | ⟨-, hset⟩
  · exact absurd hsent hnot
  · rw [hreply] at hset
    exact ⟨hsent, hreply, (server.stored _ _ _ _ _ hset).1⟩

/-- **One exchange.** -/
theorem Tracks.step {applied : List (Lease String ℚ)}
    (ht : Tracks library log s applied) (hbefore : ∀ e' ∈ log, e'.time ≤ e.time)
    (he : e.Happens library server s s') :
    ∃ applied', Tracks library (log ++ [e]) s' applied' := by
  have hlater : ∀ t, (∀ e' ∈ log ++ [e], e'.time ≤ t) → e.time ≤ t ∧ ∀ e' ∈ log, e'.time ≤ t :=
    fun t h => ⟨h e (by simp), fun e' he' => h e' (by simp [he'])⟩
  -- what leaves the keys as they are, and is no success
  have hsame : e.answer library ≠ some true →
      (∀ t k, e.time ≤ t → (server.Exists s' t k ↔ server.Exists s t k)) →
      Tracks library (log ++ [e]) s' applied := by
    intro hanswer hexists
    refine ⟨?_, ?_, ?_⟩
    · intro t k htime
      obtain ⟨hnow, hlog⟩ := hlater t htime
      rw [hexists t k hnow, ht.exists_iff t k hlog]
    · intro e' he' htrue
      rcases List.mem_append.mp he' with he' | he'
      · exact ht.granted e' he' htrue
      · rw [List.mem_singleton.mp he'] at htrue
        exact absurd htrue hanswer
    · intro l hl
      obtain ⟨e', he', hknown⟩ := ht.known l hl
      exact ⟨e', by simp [he'], hknown⟩
  rcases he with ⟨hnot, rfl⟩ | ⟨hsent, hset⟩
  · refine ⟨applied, hsame ?_ fun t k _ => Iff.rfl⟩
    rw [Exchange.answer_of_not_sent hnot]
    exact (Option.some_ne_none true).symm
  have hhappens : e.Happens library server s s' := Or.inr ⟨hsent, hset⟩
  cases effect_of_set hset with
  | same hreply hexists =>
      refine ⟨applied, hsame (fun htrue => ?_) hexists⟩
      exact hreply (Happens.stored_of_answer hhappens htrue).2.1
  | written hreply hfree hexists =>
      have hheld := ht.exists_iff e.time e.redisKey hbefore
      have hfree' : Lease.Free applied e.redisKey e.time := by
        by_contra hheld'
        exact hfree (hheld.mpr hheld')
      refine ⟨applied ++ [e.lease library], ?_, ?_, ?_⟩
      · intro t k htime
        obtain ⟨hnow, hlog⟩ := hlater t htime
        rw [hexists t k hnow, Lease.free_append_singleton]
        by_cases hk : k = e.redisKey
        · subst hk
          rw [if_pos rfl, not_and]
          constructor
          · intro hlive _ hexpired
            exact absurd hlive (not_lt.mpr (hexpired rfl))
          · intro h
            exact not_le.mp fun hexpired => h (hfree'.mono hnow) fun _ => hexpired
        · rw [if_neg hk, ht.exists_iff t k hlog, not_iff_not]
          exact ⟨fun h => ⟨h, fun hkey => absurd hkey.symm hk⟩, And.left⟩
      · intro e' he' htrue
        rcases List.mem_append.mp he' with he' | he'
        · exact List.mem_append_left _ (ht.granted e' he' htrue)
        · rw [List.mem_singleton.mp he']
          exact List.mem_append_right _ (List.mem_singleton.mpr rfl)
      · intro l hl
        rcases List.mem_append.mp hl with hl | hl
        · obtain ⟨e', he', hknown⟩ := ht.known l hl
          exact ⟨e', by simp [he'], hknown⟩
        · refine ⟨e, by simp, (List.mem_singleton.mp hl).symm, ?_⟩
          rcases hreply with hreply | hreply
          · exact Or.inl ((Exchange.answer_of_sent library hsent).1 hreply)
          · exact Or.inr ⟨hsent, hreply⟩

theorem clocked_append_singleton :
    Clocked (log ++ [e]) ↔ Clocked log ∧ ∀ e' ∈ log, e'.time ≤ e.time := by
  simp [Clocked, List.pairwise_append]

/-- **The run.** -/
theorem tracks_of_serves (h : Serves library server server.start log s) (hclock : Clocked log) :
    ∃ applied, Tracks library log s applied := by
  induction log using List.reverseRecOn generalizing s with
  | nil =>
      obtain rfl : s = server.start := h
      refine ⟨[], ?_, ?_, ?_⟩
      · intro t k _
        refine iff_of_false (server.start_empty t k) ?_
        exact not_not.mpr fun l hl => by cases hl
      · intro e he
        cases he
      · intro l hl
        cases hl
  | append_singleton log e ih =>
      obtain ⟨s₁, hlog, s₂, he, rfl⟩ := serves_append.mp h
      obtain ⟨hclock, hbefore⟩ := clocked_append_singleton.mp hclock
      obtain ⟨applied, ht⟩ := ih hlog hclock
      exact ht.step hbefore he

/-- The state before an exchange. -/
theorem tracks_before (h : Serves library server server.start (pre ++ e :: post) s)
    (hclock : Clocked (pre ++ e :: post)) :
    ∃ s₁ s₂ applied, Tracks library pre s₁ applied ∧
      e.Happens library server s₁ s₂ ∧
      (server.Exists s₁ e.time e.redisKey ↔ ¬ Lease.Free applied e.redisKey e.time) := by
  obtain ⟨s₁, hpre, s₂, he, -⟩ := serves_append.mp h
  rw [List.append_cons] at hclock
  obtain ⟨hpre', hbefore⟩ := clocked_append_singleton.mp
    (show Clocked (pre ++ [e]) by
      rw [Clocked, List.map_append, List.pairwise_append] at hclock
      exact hclock.1)
  obtain ⟨applied, ht⟩ := tracks_of_serves hpre hpre'
  exact ⟨s₁, s₂, applied, ht, he, ht.exists_iff _ _ hbefore⟩

/-- **Exclusion.** -/
theorem claims_exclusive (h : Serves library server server.start log s) (hclock : Clocked log) :
    Exclusive library log := by
  rintro pre e mid e' post rfl hsame hanswer hanswer'
  obtain ⟨s₁, s₂, applied, ht, he', hexists⟩ := tracks_before h hclock
  obtain ⟨-, -, hfree⟩ := Happens.stored_of_answer he' hanswer'
  rw [hexists, not_not] at hfree
  have hmem : e.lease library ∈ applied := ht.granted e (by simp) hanswer
  exact hfree _ hmem hsame.redisKey

end

/-- The key is had twice, a minute apart. -/
theorem claims_exclusive_handedOver : Exclusive goRedis handedOver := by
  obtain ⟨s, h⟩ := serves_handedOver
  exact claims_exclusive h clocked_handedOver

/-! ## Namespaces -/

theorem not_prefix_of_ne {p q r : List Char} {c d : Char} (h : c ≠ d) :
    ¬ p ++ c :: q <+: p ++ d :: r := by
  rw [List.prefix_append_right_inj, List.cons_prefix_cons]
  exact fun hcd => h hcd.1

/-- Somewhere they differ. -/
theorem separate_of_ne {a b : String} {p q r : List Char} {c d : Char}
    (ha : (a ++ ":").toList = p ++ c :: q) (hb : (b ++ ":").toList = p ++ d :: r) (h : c ≠ d) :
    Separate a b := by
  right
  rw [ha, hb]
  exact ⟨not_prefix_of_ne h, not_prefix_of_ne h.symm⟩

theorem Separate.symm {a b : String} (h : Separate a b) : Separate b a := by
  rcases h with rfl | ⟨hab, hba⟩
  · exact Or.inl rfl
  · exact Or.inr ⟨hba, hab⟩

/-- Keys of separate namespaces. -/
theorem Separate.key_inj {a b k k' : String} (h : Separate a b)
    (hkey : a ++ ":" ++ k = b ++ ":" ++ k') : a = b ∧ k = k' := by
  have hlist : (a ++ ":").toList ++ k.toList = (b ++ ":").toList ++ k'.toList := by
    rw [← String.toList_append, ← String.toList_append, hkey]
  rcases h with rfl | ⟨hab, hba⟩
  · exact ⟨rfl, String.toList_inj.mp (List.append_cancel_left hlist)⟩
  · have hstart : (a ++ ":").toList <+: (b ++ ":").toList ++ k'.toList :=
      hlist ▸ List.prefix_append _ _
    rcases List.prefix_or_prefix_of_prefix hstart (List.prefix_append _ _) with h | h
    · exact absurd h hab
    · exact absurd h hba

/-- One that runs on is the other, a colon, and more. -/
theorem runs_on {a b : String} (hne : a ≠ b) (h : (a ++ ":").toList <+: (b ++ ":").toList) :
    ∃ m : String, b = a ++ ":" ++ m := by
  obtain ⟨r, hr⟩ := h
  rw [String.toList_append, String.toList_append] at hr
  rcases List.eq_nil_or_concat r with rfl | ⟨m, c, rfl⟩
  · rw [List.append_nil] at hr
    exact absurd (String.toList_inj.mp (List.append_cancel_right hr)) hne
  · refine ⟨String.ofList m, String.toList_inj.mp ?_⟩
    rw [List.concat_eq_append, ← List.append_assoc] at hr
    have hlast := (List.append_inj' hr rfl).1
    simp only [String.toList_append, String.toList_ofList, ← hlast]

section

variable {library : RedisLibrary} {server : RedisServer} {s : server.State} {log : List Exchange}

/-- **Stores of separate namespaces** do not notice each other. -/
theorem ownStores_of_separate (h : Serves library server server.start log s)
    (hclock : Clocked log) (hseparate : ∀ e ∈ log, ∀ e' ∈ log,
      Separate e.claimant.redisNamespace e'.claimant.redisNamespace) : OwnStores library log := by
  rintro pre e post rfl hsent hserved hlost
  obtain ⟨s₁, s₂, applied, ht, he, hexists⟩ := tracks_before h hclock
  have hset : server.Set s₁ e.time e.redisKey (e.lifetime library) e.reply s₂ := by
    rcases he with ⟨hnot, -⟩ | ⟨-, hset⟩
    · exact absurd hsent hnot
    · exact hset
  obtain ⟨hstored, hpresent, -⟩ := Exchange.answer_of_sent library hsent
  rcases hserved with hreply | hreply
  · rw [hreply] at hset
    have hfree := (server.stored _ _ _ _ _ hset).1
    rw [hexists, not_not] at hfree
    refine ⟨true, hstored hreply, iff_of_true rfl ?_⟩
    intro e' he' hsame htrue
    exact hfree _ (ht.granted e' he' htrue) hsame.redisKey
  · rw [hreply] at hset
    have hheld := hexists.mp (server.present _ _ _ _ _ hset).1
    refine ⟨false, hpresent hreply, iff_of_false Bool.false_ne_true ?_⟩
    intro hexpired
    apply hheld
    intro l hl hlkey
    obtain ⟨e', he', rfl, hknown⟩ := ht.known l hl
    -- what holds the key is a claim of the same namespace
    have hsame : e'.SameKey e :=
      (hseparate e' (by simp [he']) e (by simp)).key_inj hlkey
    rcases hknown with htrue | ⟨hsent', hreply'⟩
    · exact hexpired e' he' hsame htrue
    · exact absurd hreply' (hlost e' he' hsame hsent')

end

/-- Under two stores of the control plane. -/
def claimUnder (a : String) (ha : strip a ≠ "") (key : String) (reply : ServerReply) : Exchange :=
  ⟨0, .controlPlane documentedCli ⟨⟨"localhost", 6379⟩, a, ha⟩, key, 1, reply⟩

/-- A namespace that runs on into another has a key of it. -/
theorem not_ownStores (library : RedisLibrary) {server : RedisServer}
    (hresponsive : server.Responsive) {a b : String} (ha : strip a ≠ "") (hb : strip b ≠ "")
    (hne : a ≠ b) (hstart : (a ++ ":").toList <+: (b ++ ":").toList) :
    ∃ log s, (∀ e ∈ log, e.claimant.redisNamespace = a ∨ e.claimant.redisNamespace = b) ∧
      Clocked log ∧ Serves library server server.start log s ∧ ¬ OwnStores library log := by
  obtain ⟨m, hm⟩ := runs_on hne hstart
  have hk : ∀ x : String, strip (x ++ "k") ≠ "" := by
    intro x hblank
    have hall := (trim_eq_empty_iff isspace _).mp hblank 'k' (by simp)
    exact absurd hall (by decide)
  obtain ⟨reply₁, s₁, hreply₁, hset₁⟩ := hresponsive server.start 0 (a ++ ":" ++ (m ++ ":" ++ "k")) 1
  have hexists : server.Exists s₁ 0 (a ++ ":" ++ (m ++ ":" ++ "k")) := by
    rcases hreply₁ with rfl | rfl
    · exact ((server.stored _ _ _ _ _ hset₁).2 0 _ le_rfl).mpr (by rw [if_pos rfl]; norm_num)
    · exact absurd (server.present _ _ _ _ _ hset₁).1 (server.start_empty _ _)
  obtain ⟨reply₂, s₂, hreply₂, hset₂⟩ := hresponsive s₁ 0 (b ++ ":" ++ "k") 1
  have hkeys : a ++ ":" ++ (m ++ ":" ++ "k") = b ++ ":" ++ "k" := by
    rw [hm]
    simp only [String.append_assoc]
  have hpresent : reply₂ = .present := by
    rcases hreply₂ with rfl | rfl
    · exact absurd (hkeys ▸ hexists) (server.stored _ _ _ _ _ hset₂).1
    · rfl
  subst hpresent
  have hsent : (claimUnder b hb "k" .present).Sent := ⟨hk "", Int.one_pos⟩
  refine ⟨[claimUnder a ha (m ++ ":" ++ "k") reply₁, claimUnder b hb "k" .present], s₂, ?_, ?_, ?_,
    ?_⟩
  · intro e he
    rcases List.mem_cons.mp he with rfl | he
    · exact Or.inl rfl
    · rw [List.mem_singleton.mp he]
      exact Or.inr rfl
  · simp [Clocked, claimUnder]
  · refine ⟨s₁, Or.inr ⟨⟨hk _, Int.one_pos⟩, ?_⟩, s₂, Or.inr ⟨hsent, ?_⟩, rfl⟩
    · exact hset₁
    · exact hset₂
  · intro hown
    have hlost : ∀ e ∈ [claimUnder a ha (m ++ ":" ++ "k") reply₁],
        e.SameKey (claimUnder b hb "k" .present) → e.Sent → e.reply ≠ .unreachable := by
      intro e he hsame _
      rw [List.mem_singleton.mp he] at hsame
      exact absurd hsame.1 hne
    obtain ⟨claimed, hclaimed, hiff⟩ := hown [_] _ [] rfl hsent (Or.inr rfl) hlost
    rw [(Exchange.answer_of_sent library hsent).2.1 rfl, Option.some.injEq] at hclaimed
    rw [← hclaimed] at hiff
    refine absurd (hiff.mpr ?_) Bool.false_ne_true
    -- no claim of its own namespace was made before
    intro e he hsame _
    rw [List.mem_singleton.mp he] at hsame
    exact absurd hsame.1 hne

/-- **Two namespaces are two stores** exactly if neither, with its colon, runs on into the
other. -/
theorem own_stores_iff {library : RedisLibrary} {server : RedisServer}
    (hresponsive : server.Responsive) {a b : String} (ha : strip a ≠ "") (hb : strip b ≠ "") :
    (∀ log s, (∀ e ∈ log, e.claimant.redisNamespace = a ∨ e.claimant.redisNamespace = b) →
      Clocked log → Serves library server server.start log s → OwnStores library log) ↔
    Separate a b := by
  constructor
  · intro hown
    by_contra hnot
    rw [Separate, not_or, not_and_or, not_not, not_not] at hnot
    obtain ⟨hne, hstart | hstart⟩ := hnot
    · obtain ⟨log, s, hnames, hclock, hserves, hfail⟩ :=
        not_ownStores library hresponsive ha hb hne hstart
      exact hfail (hown log s hnames hclock hserves)
    · obtain ⟨log, s, hnames, hclock, hserves, hfail⟩ :=
        not_ownStores library hresponsive hb ha (Ne.symm hne) hstart
      exact hfail (hown log s (fun e he => (hnames e he).symm) hclock hserves)
  · intro hseparate log s hnames hclock hserves
    refine ownStores_of_separate hserves hclock ?_
    intro e he e' he'
    rcases hnames e he with heq | heq <;> rcases hnames e' he' with heq' | heq' <;> rw [heq, heq']
    · exact Or.inl rfl
    · exact hseparate
    · exact hseparate.symm
    · exact Or.inl rfl

theorem own_stores_iff_kernelq :
    (∀ log s, (∀ e ∈ log, e.claimant.redisNamespace = "kernelq" ∨
      e.claimant.redisNamespace = "kernelq:idempotency") → Clocked log →
      Serves goRedis memoryServer memoryServer.start log s → OwnStores goRedis log) ↔
    Separate "kernelq" "kernelq:idempotency" :=
  own_stores_iff memoryServer_responsive (by decide +kernel) (by decide +kernel)

/-! ## One environment -/

/-- The namespace as Python trims it, and as it is. -/
theorem separate_strip {v : String} (hv : strip v ≠ "") : Separate (strip v) v := by
  obtain ⟨x, y, hparts, hx, hy, hfirst, -⟩ := trim_spec isspace v
  change v.toList = x ++ (strip v).toList ++ y at hparts
  change ∀ c m, (strip v).toList = c :: m → isspace c = false at hfirst
  rcases x with _ | ⟨c, x⟩
  · rcases y with _ | ⟨d, y⟩
    · left
      rw [List.nil_append, List.append_nil] at hparts
      exact (String.toList_inj.mp hparts).symm
    · -- behind the text there is a colon in one, and white space in the other
      refine separate_of_ne (p := (strip v).toList) (c := ':') (d := d) (q := []) (r := y ++ [':'])
        (String.toList_append ..) ?_ ?_
      · rw [String.toList_append, hparts]
        simp
      · rintro rfl
        exact absurd (hy ':' List.mem_cons_self) (by decide)
  · -- one begins with white space, and the other does not
    obtain ⟨u, m, hu⟩ : ∃ u m, (strip v).toList = u :: m := by
      rcases h : (strip v).toList with _ | ⟨u, m⟩
      · exact absurd (String.toList_eq_nil_iff.mp h) hv
      · exact ⟨u, m, rfl⟩
    refine separate_of_ne (p := []) (c := u) (d := c) (q := m ++ [':'])
      (r := x ++ (strip v).toList ++ y ++ [':']) ?_ ?_ ?_
    · rw [String.toList_append, hu]
      rfl
    · rw [String.toList_append, hparts]
      simp
    · rintro rfl
      exact absurd (hx u List.mem_cons_self) (by rw [hfirst u m hu]; exact Bool.false_ne_true)

/-- A text of nothing but white space. -/
theorem separate_default {v : String} (hne : v ≠ "") (hv : strip v = "") :
    Separate defaultRedisNamespace v := by
  obtain ⟨c, m, hm⟩ : ∃ c m, v.toList = c :: m := by
    rcases h : v.toList with _ | ⟨c, m⟩
    · exact absurd (String.toList_eq_nil_iff.mp h) hne
    · exact ⟨c, m, rfl⟩
  have hspace : isspace c = true :=
    (trim_eq_empty_iff isspace v).mp hv c (by rw [hm]; exact List.mem_cons_self)
  refine separate_of_ne (p := []) (c := 'k') (d := c)
    (q := "ernelq:idempotency:".toList) (r := m ++ [':']) (by decide) ?_ ?_
  · rw [String.toList_append, hm]
    rfl
  · rintro rfl
    exact absurd hspace (by decide)

/-- **One environment** gives the two sides one namespace, or two separate ones. -/
theorem separate_of_env (env : String → Option String) :
    Separate (ControlPlane.redisNamespaceFromEnv env) (Worker.redisNamespaceFromEnv env) := by
  have hdefault : strip defaultRedisNamespace = defaultRedisNamespace := by decide +kernel
  have hne : defaultRedisNamespace ≠ "" := by decide
  unfold ControlPlane.redisNamespaceFromEnv Worker.redisNamespaceFromEnv
  change Separate
    (if strip ((env envRedisNamespace).getD defaultRedisNamespace) = "" then defaultRedisNamespace
      else strip ((env envRedisNamespace).getD defaultRedisNamespace))
    (if Worker.trimSpace ((env envRedisNamespace).getD "") = "" then defaultRedisNamespace
      else (env envRedisNamespace).getD "")
  cases env envRedisNamespace with
  | none =>
      left
      have hblank : Worker.trimSpace "" = "" := by decide +kernel
      simp only [Option.getD_none, hdefault, hblank, if_true, ite_self]
  | some v =>
      simp only [Option.getD_some]
      by_cases hgo : Worker.trimSpace v = ""
      · have hpython : strip v = "" := trim_eq_empty_of_le isspace_of_isSpace hgo
        rw [if_pos hgo, if_pos hpython]
        exact Or.inl rfl
      · rw [if_neg hgo]
        by_cases hpython : strip v = ""
        · rw [if_pos hpython]
          refine separate_default ?_ hpython
          rintro rfl
          exact hgo (by decide +kernel)
        · rw [if_neg hpython]
          exact separate_strip hpython

/-- **Built from one environment**, every store is a store of its own. -/
theorem shared_redis {library : RedisLibrary} {server : RedisServer} {s : server.State}
    {log : List Exchange} (env : String → Option String)
    (h : Serves library server server.start log s) (hclock : Clocked log)
    (hbuilt : ∀ e ∈ log, e.claimant.BuiltFrom env) : OwnStores library log := by
  refine ownStores_of_separate h hclock ?_
  have hcases : ∀ e ∈ log,
      e.claimant.redisNamespace = ControlPlane.redisNamespaceFromEnv env ∨
        e.claimant.redisNamespace = Worker.redisNamespaceFromEnv env := by
    intro e he
    have hfrom := hbuilt e he
    generalize e.claimant = claimant at hfrom
    cases claimant with
    | controlPlane cli redis => exact Or.inl hfrom
    | worker redis => exact Or.inr hfrom
  intro e he e' he'
  rcases hcases e he with heq | heq <;> rcases hcases e' he' with heq' | heq' <;> rw [heq, heq']
  · exact Or.inl rfl
  · exact separate_of_env env
  · exact (separate_of_env env).symm
  · exact Or.inl rfl

theorem shared_redis_handedOver : OwnStores goRedis handedOver := by
  obtain ⟨s, h⟩ := serves_handedOver
  refine shared_redis (fun _ => none) h clocked_handedOver ?_
  have hpython : ControlPlane.redisNamespaceFromEnv (fun _ => none) = "kernelq:idempotency" := by
    decide +kernel
  have hgo : Worker.redisNamespaceFromEnv (fun _ => none) = "kernelq:idempotency" := by
    decide +kernel
  intro e he
  simp only [handedOver, List.mem_cons, List.not_mem_nil, or_false] at he
  rcases he with rfl | rfl | rfl
  · exact hpython.symm
  · exact hpython.symm
  · exact hgo.symm

end SharedRedis

end KernelQ.Pipeline
