import KernelQ.Worker.DispatchEvent

/-!
# Execution keys and their store

`execution_idempotency_key.go`, `idempotency.go` and
`in_memory_idempotency.go`. A duration is a number of nanoseconds; the in-memory
store checks it and does not use it.
-/

namespace KernelQ.Worker

open KernelQ.Foundation

inductive KeyError
  | jobIdBlank
  | attempt (got : ℤ)
  deriving DecidableEq

def KeyError.text : KeyError → String
  | jobIdBlank => "job_id must be a non-empty string"
  | attempt got => "attempt must be >= 0, got " ++ String.ofList (intText got)

def executionIdempotencyKey (jobId : String) (attempt : ℤ) : Except KeyError String :=
  if trimSpace jobId = "" then .error .jobIdBlank
  else if attempt < 0 then .error (.attempt attempt)
  else .ok ("execution:" ++ trimSpace jobId ++ ":" ++ String.ofList (intText attempt))

/-- Why a store does not answer. -/
inductive ClaimError
  | keyBlank
  | ttl (got : ℤ)
  | backend (message : String)
  deriving DecidableEq

def validateClaimInputs (key : String) (ttl : ℤ) : Except ClaimError Unit :=
  if trimSpace key = "" then .error .keyBlank
  else if ttl ≤ 0 then .error (.ttl ttl)
  else .ok ()

/-- `InMemoryIdempotencyStore.TryClaim`, on the claimed keys. -/
def inMemoryTryClaim (claimed : List String) (key : String) (ttl : ℤ) :
    List String × Except ClaimError Bool :=
  match validateClaimInputs key ttl with
  | .error e => (claimed, .error e)
  | .ok () => if key ∈ claimed then (claimed, .ok false) else (key :: claimed, .ok true)

theorem executionIdempotencyKey_eq_ok_iff {jobId key : String} {attempt : ℤ} :
    executionIdempotencyKey jobId attempt = .ok key ↔
      trimSpace jobId ≠ "" ∧ 0 ≤ attempt ∧
        key = "execution:" ++ trimSpace jobId ++ ":" ++ String.ofList (intText attempt) := by
  unfold executionIdempotencyKey
  split
  · simp_all
  · split
    · simp_all
    · rename_i hjob hattempt
      simp only [Except.ok.injEq]
      constructor
      · rintro rfl
        exact ⟨hjob, not_lt.mp hattempt, rfl⟩
      · rintro ⟨-, -, rfl⟩
        rfl

/-- A key has a colon, so no store takes it for a blank one. -/
theorem inMemoryTryClaim_of_key {jobId key : String} {attempt ttl : ℤ}
    (hkey : executionIdempotencyKey jobId attempt = .ok key) (httl : 0 < ttl)
    (claimed : List String) : inMemoryTryClaim claimed key ttl =
      if key ∈ claimed then (claimed, .ok false) else (key :: claimed, .ok true) := by
  obtain ⟨-, -, rfl⟩ := executionIdempotencyKey_eq_ok_iff.mp hkey
  have hblank : trimSpace
      ("execution:" ++ trimSpace jobId ++ ":" ++ String.ofList (intText attempt)) ≠ "" := by
    intro h
    have hcolon := (trim_eq_empty_iff isSpace _).mp h ':' (by simp [String.toList_append])
    exact absurd hcolon (by decide)
  rw [inMemoryTryClaim, validateClaimInputs, if_neg hblank, if_neg (not_le.mpr httl)]

end KernelQ.Worker
