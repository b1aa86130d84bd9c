import KernelQ.Foundation.StructDecoding

/-!
# Dispatch events, as the worker reads them

`dispatch_event.go`: the struct, its JSON fields, and the checks behind the
decoder. A message without an `attempt` is decoded with attempt 0.
-/

namespace KernelQ.Worker

open KernelQ.Foundation

/-- `unicode.IsSpace`. -/
def isSpace (c : Char) : Bool :=
  decide ((9 ≤ c.toNat ∧ c.toNat ≤ 13) ∨ (0x2000 ≤ c.toNat ∧ c.toNat ≤ 0x200a) ∨
    c.toNat ∈ [0x20, 0x85, 0xa0, 0x1680, 0x2028, 0x2029, 0x202f, 0x205f, 0x3000])

/-- `strings.TrimSpace`. -/
def trimSpace (s : String) : String := trim isSpace s

structure DispatchEvent where
  eventType : String := ""
  jobId : String := ""
  tenantId : String := ""
  priority : ℤ := 0
  state : String := ""
  payload : Option StringMap := none
  attempt : ℤ := 0
  deriving DecidableEq

inductive DispatchEventError
  | unmarshal (e : UnmarshalError)
  | eventType (got : String)
  | jobIdBlank
  | tenantIdBlank
  | priority (got : ℤ)
  | attempt (got : ℤ)
  | state (got : String)
  deriving DecidableEq

/-- The text of the error, given `%q` and the texts of the decoder. -/
def DispatchEventError.text (quote : String → String) (unmarshalText : UnmarshalError → String) :
    DispatchEventError → String
  | unmarshal e => unmarshalText e
  | eventType got => "event_type must be " ++ quote "job.dispatch" ++ ", got " ++ quote got
  | jobIdBlank => "job_id must not be blank"
  | tenantIdBlank => "tenant_id must not be blank"
  | priority got => "priority must be >= 0, got " ++ String.ofList (intText got)
  | attempt got => "attempt must be >= 0, got " ++ String.ofList (intText got)
  | state got => "state must be " ++ quote "dispatched" ++ ", got " ++ quote got

namespace DispatchEvent

def validate (e : DispatchEvent) : Except DispatchEventError Unit :=
  if e.eventType ≠ "job.dispatch" then .error (.eventType e.eventType)
  else if trimSpace e.jobId = "" then .error .jobIdBlank
  else if trimSpace e.tenantId = "" then .error .tenantIdBlank
  else if e.priority < 0 then .error (.priority e.priority)
  else if e.attempt < 0 then .error (.attempt e.attempt)
  else if e.state ≠ "dispatched" then .error (.state e.state)
  else .ok ()

/-- What `validate` accepts. -/
structure Valid (e : DispatchEvent) : Prop where
  eventType : e.eventType = "job.dispatch"
  jobId : trimSpace e.jobId ≠ ""
  tenantId : trimSpace e.tenantId ≠ ""
  priority : 0 ≤ e.priority
  attempt : 0 ≤ e.attempt
  state : e.state = "dispatched"

theorem validate_eq_ok_iff {e : DispatchEvent} : e.validate = .ok () ↔ e.Valid := by
  unfold validate
  constructor
  · intro h
    split at h
    · cases h
    split at h
    · cases h
    split at h
    · cases h
    split at h
    · cases h
    split at h
    · cases h
    split at h
    · cases h
    · rename_i h₁ h₂ h₃ h₄ h₅ h₆
      exact ⟨not_not.mp h₁, h₂, h₃, not_lt.mp h₄, not_lt.mp h₅, not_not.mp h₆⟩
  · rintro ⟨h₁, h₂, h₃, h₄, h₅, h₆⟩
    rw [if_neg (not_not.mpr h₁), if_neg h₂, if_neg h₃, if_neg (not_lt.mpr h₄),
      if_neg (not_lt.mpr h₅), if_neg (not_not.mpr h₆)]

/-- The JSON tags. -/
def fields : List (StructField DispatchEvent) :=
  [.string "event_type" eventType fun e s => { e with eventType := s },
    .string "job_id" jobId fun e s => { e with jobId := s },
    .string "tenant_id" tenantId fun e s => { e with tenantId := s },
    .int "priority" priority fun e i => { e with priority := i },
    .string "state" state fun e s => { e with state := s },
    .stringMap "payload" payload fun e m => { e with payload := m },
    .int "attempt" attempt fun e i => { e with attempt := i }]

end DispatchEvent

def parseDispatchEvent (data : ByteArray) : Except DispatchEventError DispatchEvent :=
  match unmarshal DispatchEvent.fields "worker.DispatchEvent" {} data with
  | .error e => .error (.unmarshal e)
  | .ok event =>
      match event.validate with
      | .error e => .error e
      | .ok () => .ok event

theorem parseDispatchEvent_valid {data : ByteArray} {e : DispatchEvent}
    (h : parseDispatchEvent data = .ok e) : e.Valid := by
  unfold parseDispatchEvent at h
  split at h
  · cases h
  · split at h
    · cases h
    · rename_i hvalid
      cases h
      exact DispatchEvent.validate_eq_ok_iff.mp hvalid

end KernelQ.Worker
