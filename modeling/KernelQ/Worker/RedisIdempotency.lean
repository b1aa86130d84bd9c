import KernelQ.Worker.ExecutionIdempotencyKey

/-!
# The Redis store of the workers

`redis_idempotency.go`: a claim is one `SetNX` of the client, and an error of the client
is an error of the claim.
-/

namespace KernelQ.Worker

/-- What `SetNX(key, value, expiration)` returns: `claimed`, or the error. -/
abbrev RedisSetNXClient := String → String → ℤ → Except String Bool

inductive RedisStoreError
  | clientNil
  | namespaceBlank
  deriving DecidableEq

def RedisStoreError.text : RedisStoreError → String
  | clientNil => "redis idempotency client must not be nil"
  | namespaceBlank => "redis idempotency namespace must be non-empty"

/-- A store that `NewRedisIdempotencyStore` returns. -/
structure RedisIdempotencyStore where
  redisNamespace : String
  namespace_valid : trimSpace redisNamespace ≠ ""

/-- The client goes with each call instead. -/
def newRedisIdempotencyStore (client : Option RedisSetNXClient) (redisNamespace : String) :
    Except RedisStoreError RedisIdempotencyStore :=
  match client with
  | none => .error .clientNil
  | some _ =>
      if h : trimSpace redisNamespace = "" then .error .namespaceBlank
      else .ok ⟨redisNamespace, h⟩

namespace RedisIdempotencyStore

def tryClaim (store : RedisIdempotencyStore) (client : RedisSetNXClient) (key : String)
    (ttl : ℤ) : Except ClaimError Bool :=
  match validateClaimInputs key ttl with
  | .error e => .error e
  | .ok () =>
      match client (store.redisNamespace ++ ":" ++ key) "1" ttl with
      | .error text => .error (.backend text)
      | .ok claimed => .ok claimed

variable {store : RedisIdempotencyStore} {client : RedisSetNXClient} {key : String} {ttl : ℤ}

theorem tryClaim_valid (hkey : trimSpace key ≠ "") (httl : 0 < ttl) :
    (store.tryClaim client key ttl).toOption =
      (client (store.redisNamespace ++ ":" ++ key) "1" ttl).toOption := by
  rw [tryClaim, validateClaimInputs, if_neg hkey, if_neg (not_le.mpr httl)]
  cases client (store.redisNamespace ++ ":" ++ key) "1" ttl <;> rfl

/-- A claim that is not valid is not sent. -/
theorem tryClaim_invalid (h : ¬ (trimSpace key ≠ "" ∧ 0 < ttl)) :
    (store.tryClaim client key ttl).toOption = none := by
  rw [tryClaim, validateClaimInputs]
  by_cases hkey : trimSpace key = ""
  · rw [if_pos hkey]
    rfl
  · rw [if_neg hkey, if_pos (not_lt.mp fun httl => h ⟨hkey, httl⟩)]
    rfl

end RedisIdempotencyStore

/-! ## The namespace of the workers -/

def envRedisNamespace : String := "KERNELQ_REDIS_NAMESPACE"

def defaultRedisNamespace : String := "kernelq:idempotency"

/-- The namespace in `buildIdempotencyStore`. A variable that is not set is the empty
string. -/
def redisNamespaceFromEnv (env : String → Option String) : String :=
  let redisNamespace := (env envRedisNamespace).getD ""
  if trimSpace redisNamespace = "" then defaultRedisNamespace else redisNamespace

end KernelQ.Worker
