import KernelQ.Foundation.JsonLimits
import KernelQ.ControlPlane.ResultEvent

/-!
# The result format

What a JSON value has to be for a result event, and what the parser makes of the values
that are not. `str` and `isinstance` let values of another type through: `null` is the
job `None`, and `true` is attempt 1. `json` itself gives up on long integers and deep values,
whatever they are (`accepts_format_iff`).
-/

namespace KernelQ.ControlPlane

open KernelQ.Foundation

/-! ## The limits of the interpreter -/

/-- The limit of digits, `sys.int_info.default_max_str_digits`, that the program leaves as it
is. -/
def defaultMaxStrDigits : ℕ := 4300

/-- What is raised: an error of this module, or one that `json` raises at a limit. -/
inductive LimitedError
  | event (e : ResultEventError)
  /-- `ValueError`: `Exceeds the limit (4300 digits) for integer string conversion`. -/
  | digits
  /-- `RecursionError`. -/
  | recursion

/-- `parse_worker_result_event`, where `json.loads` has limits. -/
def parseWithin (limits : JsonLimits) (repr : Json → String) (data : ByteArray) :
    Except LimitedError WorkerResultEvent :=
  match String.fromUTF8? data with
  | none => .error (.event .notUtf8)
  | some text =>
      match Json.parse none text.toList with
      | none => .error (.event .invalidJson)
      | some v =>
          if limits.digits < v.longestInt then .error .digits
          else if limits.depth < v.depth then .error .recursion
          else (parseWorkerResultEvent repr data).mapError .event

/-- `to_json`, where `json.dumps` has limits. -/
def toJsonWithin (limits : JsonLimits) (e : WorkerResultEvent) : Except LimitedError String := do
  e.validate.mapError .event
  if limits.digits < (Json.obj e.toDict).longestInt then .error .digits
  else if limits.depth < (Json.obj e.toDict).depth then .error .recursion
  else e.toJson.mapError .event

/-! ## The format -/

variable {limits : JsonLimits} {repr : Json → String} {fields : List (String × Json)}
  {e : WorkerResultEvent}

/-- The members of an object spell the event, in the types of the format. -/
structure Spells (fields : List (String × Json)) (e : WorkerResultEvent) : Prop where
  eventType : dictGet? fields "event_type" = some (.str e.eventType)
  jobId : dictGet? fields "job_id" = some (.str e.jobId)
  status : dictGet? fields "status" = some (.str e.status)
  message : dictGet? fields "message" = none ∧ e.message = "" ∨
    dictGet? fields "message" = some (.str e.message)
  worker : dictGet? fields "worker" = some (.str e.worker)
  attempt : dictGet? fields "attempt" = none ∧ e.attempt = .int 0 ∨
    ∃ i, dictGet? fields "attempt" = some (.int i) ∧ e.attempt = .int i
  valid : e.Valid

/-- In the encoding of `S`, the value is accepted if and only if it spells an event, as that
event. -/
def AcceptsFormat (limits : JsonLimits) (repr : Json → String) (S : Style) (v : Json) : Prop :=
  ∀ e, parseWithin limits repr (String.ofList (v.render S)).toUTF8 = .ok e ↔
    ∃ fields, v = .obj fields ∧ Spells fields e

/-- The event comes back from its own text. -/
def RoundTrips (limits : JsonLimits) (repr : Json → String) (e : WorkerResultEvent) : Prop :=
  ∃ text, toJsonWithin limits e = .ok text ∧ parseWithin limits repr text.toUTF8 = .ok e

/-- The text that `str` makes of a member, or of its default. -/
def textOf (repr : Json → String) (fields : List (String × Json)) (key : String) : String :=
  pyStr repr ((dictGet? fields key).getD (.str ""))

/-- A member that is there and is not a string. -/
def NotString (fields : List (String × Json)) (key : String) : Prop :=
  ∃ v, dictGet? fields key = some v ∧ ∀ s, v ≠ .str s

def textFields : List String := ["event_type", "job_id", "status", "message", "worker"]

/-- The texts pass for those of an event, with a value of another type among them. -/
structure LetThrough (repr : Json → String) (fields : List (String × Json)) : Prop where
  eventType : textOf repr fields "event_type" = workerResultEventType
  jobId : strip (textOf repr fields "job_id") ≠ ""
  status : textOf repr fields "status" ∈ allowedStatuses
  worker : strip (textOf repr fields "worker") ≠ ""
  attempt : ∃ a, pyInt? ((dictGet? fields "attempt").getD (.int 0)) = some a ∧ 0 ≤ a.toInt
  mistyped : (∃ key ∈ textFields, NotString fields key) ∨
    ∃ b, dictGet? fields "attempt" = some (.bool b)

/-! ## What is accepted -/

theorem eventOfDict_eq_ok_iff : eventOfDict repr fields = .ok e ↔
    pyInt? ((dictGet? fields "attempt").getD (.int 0)) = some e.attempt ∧
      e.eventType = textOf repr fields "event_type" ∧ e.jobId = textOf repr fields "job_id" ∧
      e.status = textOf repr fields "status" ∧ e.message = textOf repr fields "message" ∧
      e.worker = textOf repr fields "worker" := by
  obtain ⟨eventType, jobId, status, message, worker, attempt⟩ := e
  rw [eventOfDict]
  cases pyInt? ((dictGet? fields "attempt").getD (.int 0)) with
  | none => simp
  | some a =>
      simp only [Except.ok.injEq, WorkerResultEvent.mk.injEq, Option.some.injEq]
      constructor
      · rintro ⟨rfl, rfl, rfl, rfl, rfl, rfl⟩
        exact ⟨rfl, rfl, rfl, rfl, rfl, rfl⟩
      · rintro ⟨rfl, rfl, rfl, rfl, rfl, rfl⟩
        exact ⟨rfl, rfl, rfl, rfl, rfl, rfl⟩

/-- **An encoded value is accepted** as an object whose texts make up a valid event. -/
theorem parseWorkerResultEvent_eq_ok_iff {S : Style} {v : Json} :
    parseWorkerResultEvent repr (String.ofList (v.render S)).toUTF8 = .ok e ↔
      ∃ fields, v = .obj fields ∧ eventOfDict repr fields = .ok e ∧ e.Valid := by
  rw [parseWorkerResultEvent, fromUTF8?_toUTF8]
  simp only [String.toList_ofList, Json.parse_render]
  cases v with
  | obj fields =>
      simp only [Json.obj.injEq, exists_eq_left']
      cases hevent : eventOfDict repr fields with
      | error err => simp [bind, Except.bind]
      | ok event =>
          simp only [bind, Except.bind, Except.ok.injEq]
          cases hvalid : event.validate with
          | error err =>
              constructor
              · intro h
                cases h
              · rintro ⟨rfl, he⟩
                rw [WorkerResultEvent.validate_eq_ok_iff.mpr he] at hvalid
                cases hvalid
          | ok u =>
              constructor
              · intro h
                cases h
                exact ⟨rfl, WorkerResultEvent.validate_eq_ok_iff.mp hvalid⟩
              · rintro ⟨rfl, -⟩
                rfl
  | _ => simp

theorem textOf_str {key s : String} (h : dictGet? fields key = some (.str s)) :
    textOf repr fields key = s := by
  rw [textOf, h]
  rfl

theorem textOf_none {key : String} (h : dictGet? fields key = none) :
    textOf repr fields key = "" := by
  rw [textOf, h]
  rfl

/-- The text is the member's own, unless the member is of another type. -/
theorem textOf_cases {key : String} (hstring : ¬ NotString fields key) :
    dictGet? fields key = none ∧ textOf repr fields key = "" ∨
      dictGet? fields key = some (.str (textOf repr fields key)) := by
  cases hget : dictGet? fields key with
  | none => exact Or.inl ⟨rfl, textOf_none hget⟩
  | some v =>
      cases v with
      | str s => exact Or.inr (by rw [textOf_str hget])
      | _ => exact absurd ⟨_, hget, by simp⟩ hstring

theorem str_of_textOf_ne {key : String} (hne : textOf repr fields key ≠ "")
    (hstring : ¬ NotString fields key) :
    dictGet? fields key = some (.str (textOf repr fields key)) :=
  (textOf_cases hstring).resolve_left fun h => hne h.2

/-- The attempt is the member's own integer, unless the member is a truth value. -/
theorem attempt_cases {a : PyInt}
    (hattempt : pyInt? ((dictGet? fields "attempt").getD (.int 0)) = some a)
    (hbool : ¬ ∃ b, dictGet? fields "attempt" = some (.bool b)) :
    dictGet? fields "attempt" = none ∧ a = .int 0 ∨
      ∃ i, dictGet? fields "attempt" = some (.int i) ∧ a = .int i := by
  cases hget : dictGet? fields "attempt" with
  | none =>
      rw [hget] at hattempt
      exact Or.inl ⟨rfl, (Option.some.inj hattempt).symm⟩
  | some v =>
      rw [hget] at hattempt
      cases v with
      | int i => exact Or.inr ⟨i, rfl, (Option.some.inj hattempt).symm⟩
      | bool b => exact absurd ⟨b, hget⟩ hbool
      | _ => cases hattempt

/-- **What spells an event is read as that event.** -/
theorem Spells.eventOfDict (h : Spells fields e) : eventOfDict repr fields = .ok e := by
  refine eventOfDict_eq_ok_iff.mpr ⟨?_, (textOf_str h.eventType).symm, (textOf_str h.jobId).symm,
    (textOf_str h.status).symm, ?_, (textOf_str h.worker).symm⟩
  · rcases h.attempt with ⟨hnone, hattempt⟩ | ⟨i, hsome, hattempt⟩
    · rw [hnone, hattempt]
      rfl
    · rw [hsome, hattempt]
      rfl
  · rcases h.message with ⟨hnone, hmessage⟩ | hsome
    · rw [textOf_none hnone, hmessage]
    · rw [textOf_str hsome]

/-- What is accepted, and has no value of another type, spells the event. -/
theorem spells_of_eventOfDict (hevent : eventOfDict repr fields = .ok e) (hvalid : e.Valid)
    (hnot : ¬ LetThrough repr fields) : Spells fields e := by
  obtain ⟨hattempt, hevent, hjob, hstatus, hmessage, hworker⟩ := eventOfDict_eq_ok_iff.mp hevent
  have htyped : ¬ ((∃ key ∈ textFields, NotString fields key) ∨
      ∃ b, dictGet? fields "attempt" = some (.bool b)) := fun hmistyped => hnot
    { eventType := hevent.symm.trans hvalid.eventType
      jobId := hjob ▸ hvalid.jobId
      status := hstatus ▸ hvalid.status
      worker := hworker ▸ hvalid.worker
      attempt := ⟨e.attempt, hattempt, hvalid.attempt⟩
      mistyped := hmistyped }
  have hstring : ∀ key ∈ textFields, ¬ NotString fields key :=
    fun key hkey hnot => htyped (Or.inl ⟨key, hkey, hnot⟩)
  have hblank : ∀ s, strip s ≠ "" → s ≠ "" := by
    rintro s hs rfl
    exact hs (by decide)
  constructor
  case eventType =>
    rw [hevent]
    refine str_of_textOf_ne ?_ (hstring _ (by decide))
    rw [← hevent, hvalid.eventType]
    decide
  case jobId =>
    rw [hjob]
    exact str_of_textOf_ne (hjob ▸ hblank _ hvalid.jobId) (hstring _ (by decide))
  case status =>
    rw [hstatus]
    refine str_of_textOf_ne ?_ (hstring _ (by decide))
    intro hempty
    have hmem := hvalid.status
    rw [hstatus, hempty] at hmem
    exact absurd hmem (by decide)
  case message =>
    -- the message alone may be missing, or empty
    rw [hmessage]
    exact textOf_cases (hstring _ (by decide))
  case worker =>
    rw [hworker]
    exact str_of_textOf_ne (hworker ▸ hblank _ hvalid.worker) (hstring _ (by decide))
  case attempt => exact attempt_cases hattempt fun hbool => htyped (Or.inr hbool)
  case valid => exact hvalid

/-- What has been let through is an event for the parser, and spells none. -/
theorem LetThrough.accepted (h : LetThrough repr fields) :
    ∃ e : WorkerResultEvent, eventOfDict repr fields = .ok e ∧ e.Valid ∧ ¬ Spells fields e := by
  obtain ⟨a, ha, hnonneg⟩ := h.attempt
  obtain ⟨e, he⟩ : ∃ e, eventOfDict repr fields = .ok e := by
    rw [eventOfDict, ha]
    exact ⟨_, rfl⟩
  obtain ⟨hattempt, hevent, hjob, hstatus, -, hworker⟩ := eventOfDict_eq_ok_iff.mp he
  rw [ha, Option.some.injEq] at hattempt
  have hvalid : e.Valid :=
    { eventType := hevent.trans h.eventType
      jobId := hjob ▸ h.jobId
      status := hstatus ▸ h.status
      worker := hworker ▸ h.worker
      attempt := hattempt ▸ hnonneg }
  refine ⟨e, he, hvalid, ?_⟩
  intro hspells
  rcases h.mistyped with ⟨key, hkey, v, hget, hnot⟩ | ⟨b, hbool⟩
  · have hstring : dictGet? fields key = none ∨ ∃ s, dictGet? fields key = some (.str s) := by
      simp only [textFields, List.mem_cons, List.not_mem_nil, or_false] at hkey
      rcases hkey with rfl | rfl | rfl | rfl | rfl
      · exact Or.inr ⟨_, hspells.eventType⟩
      · exact Or.inr ⟨_, hspells.jobId⟩
      · exact Or.inr ⟨_, hspells.status⟩
      · exact hspells.message.imp And.left fun hmessage => ⟨_, hmessage⟩
      · exact Or.inr ⟨_, hspells.worker⟩
    rcases hstring with hnone | ⟨s, hsome⟩
    · rw [hnone] at hget
      cases hget
    · rw [hsome] at hget
      exact hnot s (Option.some.inj hget).symm
  · rcases hspells.attempt with ⟨hnone, -⟩ | ⟨i, hint, -⟩
    · rw [hnone] at hbool
      cases hbool
    · rw [hint] at hbool
      cases hbool

/-! ## Within the limits -/

/-- An encoded value beyond the limits is not accepted. -/
theorem parseWithin_eq_ok_iff {S : Style} {v : Json} :
    parseWithin limits repr (String.ofList (v.render S)).toUTF8 = .ok e ↔
      limits.Takes v ∧
        parseWorkerResultEvent repr (String.ofList (v.render S)).toUTF8 = .ok e := by
  rw [parseWithin, fromUTF8?_toUTF8]
  simp only [String.toList_ofList, Json.parse_render]
  rw [JsonLimits.checked_eq_ok_iff]
  refine and_congr_right fun _ => ?_
  cases parseWorkerResultEvent repr (String.ofList (v.render S)).toUTF8 with
  | error err => exact iff_of_false (by rintro ⟨⟩) (by rintro ⟨⟩)
  | ok event => simp only [Except.mapError, Except.ok.injEq]

/-- What `to_json` writes is never deep, and its one integer is the attempt. -/
theorem takes_toDict_iff : limits.Takes (.obj e.toDict) ↔
    ∀ i, e.attempt = .int i → intDigits i ≤ limits.digits := by
  obtain ⟨eventType, jobId, status, message, worker, attempt⟩ := e
  cases attempt with
  | int i =>
      have hlongest : (Json.obj (WorkerResultEvent.mk eventType jobId status message worker
          (.int i)).toDict).longestInt = intDigits i := by
        simp [WorkerResultEvent.toDict, Json.longestInt, Json.longestIntOfFields]
      constructor
      · rintro h _ hi
        cases hi
        exact hlongest ▸ h.digits
      · exact fun h => ⟨hlongest.le.trans (h i rfl), limits.depth_pos⟩
  | bool b =>
      constructor
      · rintro _ _ hi
        cases hi
      · exact fun _ => ⟨Nat.zero_le _, limits.depth_pos⟩

theorem toJsonWithin_of_valid (he : e.Valid) {text : String} :
    toJsonWithin limits e = .ok text ↔ limits.Takes (.obj e.toDict) ∧
      text = String.ofList ((Json.obj e.toDict).render .python) := by
  rw [toJsonWithin, WorkerResultEvent.validate_eq_ok_iff.mpr he,
    WorkerResultEvent.toJson_of_valid he]
  refine JsonLimits.checked_eq_ok_iff.trans (and_congr_right fun _ => ?_)
  rw [Except.mapError, Except.ok.injEq, eq_comm]

/-- **Without limits** a value is accepted by the format exactly if it is no object whose texts
pass for those of an event with a value of another type among them. -/
theorem accepted_iff_spells {S : Style} {v : Json} :
    (∀ e, parseWorkerResultEvent repr (String.ofList (v.render S)).toUTF8 = .ok e ↔
        ∃ fields, v = .obj fields ∧ Spells fields e) ↔
      ∀ fields, v = .obj fields → ¬ LetThrough repr fields := by
  constructor
  · rintro h fields rfl hlet
    obtain ⟨e, hevent, hvalid, hnot⟩ := hlet.accepted
    obtain ⟨fields', heq, hspells⟩ :=
      (h e).mp (parseWorkerResultEvent_eq_ok_iff.mpr ⟨fields, rfl, hevent, hvalid⟩)
    cases heq
    exact hnot hspells
  · intro h e
    rw [parseWorkerResultEvent_eq_ok_iff]
    constructor
    · rintro ⟨fields, rfl, hevent, hvalid⟩
      exact ⟨fields, rfl, spells_of_eventOfDict hevent hvalid (h fields rfl)⟩
    · rintro ⟨fields, rfl, hspells⟩
      exact ⟨fields, rfl, hspells.eventOfDict, hspells.valid⟩

/-- **When a value is accepted by the format**: within the limits, exactly if it is no object
whose texts pass for those of an event with a value of another type among them; beyond them,
exactly if it spells no event. And a valid event comes back from its own text exactly if its
attempt has not too many digits. -/
theorem accepts_format_iff (limits : JsonLimits) (repr : Json → String) :
    (∀ (S : Style) (v : Json), AcceptsFormat limits repr S v ↔
      (limits.Takes v → ∀ fields, v = .obj fields → ¬ LetThrough repr fields) ∧
        (¬ limits.Takes v → ∀ fields e, v = .obj fields → ¬ Spells fields e)) ∧
      ∀ e : WorkerResultEvent, e.Valid → (RoundTrips limits repr e ↔
        ∀ i, e.attempt = .int i → intDigits i ≤ limits.digits) := by
  constructor
  · intro S v
    rw [AcceptsFormat]
    simp only [parseWithin_eq_ok_iff]
    by_cases htakes : limits.Takes v
    · simp only [htakes, true_and, true_implies, not_true, false_implies, and_true]
      exact accepted_iff_spells
    · simp only [htakes, false_and, false_iff, false_implies, not_false_eq_true, true_implies,
        true_and, not_exists, not_and]
      exact forall_comm
  · intro e he
    rw [← takes_toDict_iff]
    constructor
    · rintro ⟨text, htext, -⟩
      exact ((toJsonWithin_of_valid he).mp htext).1
    · intro htakes
      refine ⟨_, (toJsonWithin_of_valid he).mpr ⟨htakes, rfl⟩, parseWithin_eq_ok_iff.mpr
        ⟨htakes, ?_⟩⟩
      exact parseWorkerResultEvent_toJson repr (WorkerResultEvent.toJson_of_valid he)

/-- A result for no job, of attempt `true`. -/
def nullJobMembers : List (String × Json) :=
  [("event_type", .str "job.result"), ("job_id", .null), ("status", .str "succeeded"),
    ("worker", .str "worker"), ("attempt", .bool true)]

/-- The limits of an interpreter with this many frames left. -/
def defaultLimits : JsonLimits where
  digits := defaultMaxStrDigits
  depth := 900
  depth_pos := by decide

/-- It is taken for a result of the job `None`. -/
theorem null_job_accepted :
    ¬ AcceptsFormat defaultLimits (fun _ => "") .python (.obj nullJobMembers) := by
  intro h
  obtain ⟨fields, hobj, hspells⟩ := (h ⟨"job.result", "None", "succeeded", "", "worker",
    .bool true⟩).mp (parseWithin_eq_ok_iff.mpr ⟨by decide,
      parseWorkerResultEvent_eq_ok_iff.mpr ⟨nullJobMembers, rfl, rfl,
        ⟨rfl, by decide +kernel, by decide, by decide +kernel, by decide⟩⟩⟩)
  cases hobj
  have hjob : some Json.null = some (.str "None") := hspells.jobId
  cases hjob

end KernelQ.ControlPlane
