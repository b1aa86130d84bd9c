import KernelQ.Foundation.JsonStyle
import KernelQ.ControlPlane.JobRepository
import KernelQ.ControlPlane.IdempotencyStore

/-!
# One scheduler tick

`scheduler_tick.py` and the events of `kafka_producer.py`: claim rows, then for
each of them claim its dispatch key and publish an event. A job whose key is
taken counts as a duplicate and is passed over, its row already `dispatched`.

`runOnce_of_fresh` is the tick that goes well: every key is new, and so every
claimed job is published.
-/

namespace KernelQ.ControlPlane

open KernelQ.Foundation

structure DispatchEvent where
  eventType : String
  jobId : String
  tenantId : String
  priority : ℤ
  state : String
  payload : Payload

namespace DispatchEvent

def toDict (e : DispatchEvent) : List (String × Json) :=
  [("event_type", .str e.eventType), ("job_id", .str e.jobId), ("tenant_id", .str e.tenantId),
    ("priority", .int e.priority), ("state", .str e.state), ("payload", .obj e.payload.fields)]

def toJson (e : DispatchEvent) : String :=
  String.ofList ((Json.obj e.toDict).render .python)

/-- The event `run_once` publishes for a claimed job. -/
def ofJob (job : JobRecord) : DispatchEvent where
  eventType := "job.dispatch"
  jobId := job.jobId
  tenantId := job.tenantId
  priority := job.priority
  state := job.state
  payload := job.payload

end DispatchEvent

/-- A producer with states `π`: `publish_dispatch_event`. -/
structure JobProducer (π : Type) where
  publish : π → DispatchEvent → π × Except PyException Unit

/-- A producer that never fails: the events in Kafka, oldest first. -/
def dispatchTopic : JobProducer (List DispatchEvent) :=
  ⟨fun log event => (log ++ [event], .ok ())⟩

structure SchedulerTickResult where
  selectedCount : ℕ
  dispatchedCount : ℕ
  dispatchedJobIds : List String := []
  skippedCount : ℕ := 0
  errors : List String := []
  publishedCount : ℕ := 0
  publishErrors : List String := []
  duplicateDispatches : ℕ := 0
  deriving DecidableEq

/-- The result of a tick that published all it claimed. -/
def SchedulerTickResult.published (claimedJobs : List JobRecord) : SchedulerTickResult where
  selectedCount := claimedJobs.length
  dispatchedCount := claimedJobs.length
  dispatchedJobIds := claimedJobs.map JobRecord.jobId
  publishedCount := claimedJobs.length

def defaultDispatchDedupeTtlSeconds : ℤ := 86400

structure SchedulerTickRunner where
  maxJobsPerTick : ℤ := 10
  dispatchDedupeTtlSeconds : ℤ := defaultDispatchDedupeTtlSeconds
  maxJobs_pos : 0 < maxJobsPerTick

/-- The default passes the check of the constructor. -/
theorem defaultMaxJobs_pos : (0 : ℤ) < 10 := by decide

namespace SchedulerTickRunner

/-- What the loop over the claimed jobs carries along. -/
structure Loop (σ π : Type) where
  store : σ
  producer : π
  publishedCount : ℕ := 0
  publishErrors : List String := []
  duplicateDispatches : ℕ := 0

variable {σ π : Type} (S : IdempotencyStore σ) (P : JobProducer π)

/-- The body of the loop. An exception of `dispatch_key` or of the store ends the tick. -/
def publishJob (runner : SchedulerTickRunner) (l : Loop σ π) (job : JobRecord) :
    Except PyException (Loop σ π) := do
  let dedupeKey ← dispatchKey job.jobId (.int job.retryCount)
  let (claimed, store) ← S.tryClaim l.store dedupeKey runner.dispatchDedupeTtlSeconds
  if claimed then
    match P.publish l.producer (.ofJob job) with
    | (producer, .ok ()) =>
        return { l with store, producer, publishedCount := l.publishedCount + 1 }
    | (producer, .error e) =>
        let error := "publish " ++ job.jobId ++ ": " ++ e.type ++ ": " ++ e.message
        return { l with store, producer, publishErrors := l.publishErrors ++ [error] }
  else return { l with store, duplicateDispatches := l.duplicateDispatches + 1 }

/-- The loop, and the exception that ended it early, if one did. -/
def publishJobs (runner : SchedulerTickRunner) :
    Loop σ π → List JobRecord → Loop σ π × Option PyException
  | l, [] => (l, none)
  | l, job :: jobs =>
      match publishJob S P runner l job with
      | .ok l' => publishJobs runner l' jobs
      | .error e => (l, some e)

/-- The outside world of a tick. -/
structure World (σ π : Type) where
  jobs : Jobs
  store : σ
  producer : π

/-- `run_once` of a runner with a producer. -/
def runOnce (runner : SchedulerTickRunner) (E : Executor) (now : ℤ) (w : World σ π) :
    World σ π × Except PyException SchedulerTickResult :=
  match JobRepository.claimSchedulableJobs w.jobs E now runner.maxJobsPerTick with
  | .error e =>
      (w, .ok
        { selectedCount := 0
          dispatchedCount := 0
          errors := ["claim_schedulable_jobs: " ++ e.type ++ ": " ++ e.message] })
  | .ok (jobs, claimedJobs) =>
      match publishJobs S P runner ⟨w.store, w.producer, 0, [], 0⟩ claimedJobs with
      | (l, some e) => (⟨jobs, l.store, l.producer⟩, .error e)
      | (l, none) =>
          (⟨jobs, l.store, l.producer⟩, .ok
            { selectedCount := claimedJobs.length
              dispatchedCount := claimedJobs.length
              dispatchedJobIds := claimedJobs.map JobRecord.jobId
              publishedCount := l.publishedCount
              publishErrors := l.publishErrors
              duplicateDispatches := l.duplicateDispatches })

/-! ## A tick over claimed keys -/

theorem publishJob_of_claimed {runner : SchedulerTickRunner}
    (httl : 0 < runner.dispatchDedupeTtlSeconds) (l : Loop (List String) (List DispatchEvent))
    {job : JobRecord} {key : String}
    (hkey : dispatchKey job.jobId (.int job.retryCount) = .ok key) (hmem : key ∈ l.store) :
    publishJob claimedKeys dispatchTopic runner l job =
      .ok { l with duplicateDispatches := l.duplicateDispatches + 1 } := by
  have hclaim : claimedKeys.tryClaim l.store key runner.dispatchDedupeTtlSeconds =
      .ok (false, l.store) := by
    rw [claimedKeys_tryClaim (strip_key_ne hkey) httl, if_pos hmem]
  simp only [publishJob, hkey, bind, Except.bind, hclaim]
  rfl

/-! ## A tick over fresh keys -/

section Fresh

variable {runner : SchedulerTickRunner}

theorem publishJob_of_fresh (httl : 0 < runner.dispatchDedupeTtlSeconds)
    (l : Loop (List String) (List DispatchEvent)) {job : JobRecord} {key : String}
    (hkey : dispatchKey job.jobId (.int job.retryCount) = .ok key) (hfresh : key ∉ l.store) :
    publishJob claimedKeys dispatchTopic runner l job = .ok
      { l with
        store := key :: l.store
        producer := l.producer ++ [.ofJob job]
        publishedCount := l.publishedCount + 1 } := by
  have hclaim : claimedKeys.tryClaim l.store key runner.dispatchDedupeTtlSeconds =
      .ok (true, key :: l.store) := by
    rw [claimedKeys_tryClaim (strip_key_ne hkey) httl, if_neg hfresh]
  simp only [publishJob, hkey, bind, Except.bind, hclaim]
  rfl

/-- One key per job, none of them taken: every job is published, in order. -/
theorem publishJobs_of_fresh (httl : 0 < runner.dispatchDedupeTtlSeconds) (key : JobRecord → String)
    {jobs : List JobRecord}
    (hkey : ∀ job ∈ jobs, dispatchKey job.jobId (.int job.retryCount) = .ok (key job))
    (hnodup : (jobs.map key).Nodup) :
    ∀ l : Loop (List String) (List DispatchEvent), (∀ job ∈ jobs, key job ∉ l.store) →
      publishJobs claimedKeys dispatchTopic runner l jobs =
        ({ l with
            store := (jobs.map key).reverse ++ l.store
            producer := l.producer ++ jobs.map .ofJob
            publishedCount := l.publishedCount + jobs.length }, none) := by
  induction jobs with
  | nil =>
      intro l _
      simp [publishJobs]
  | cons job jobs ih =>
      intro l hfresh
      obtain ⟨hjob, hnodup⟩ := List.nodup_cons.mp hnodup
      have hstep := publishJob_of_fresh httl l (hkey job List.mem_cons_self)
        (hfresh job List.mem_cons_self)
      rw [publishJobs, hstep]
      simp only
      rw [ih (fun j hj => hkey j (List.mem_cons_of_mem _ hj)) hnodup]
      · simp [Nat.add_assoc, Nat.add_comm 1]
      · intro j hj hmem
        rcases List.mem_cons.mp hmem with he | hmem
        · exact hjob (he ▸ List.mem_map_of_mem hj)
        · exact hfresh j (List.mem_cons_of_mem _ hj) hmem

/-- A job without a key ends the tick. -/
theorem publishJob_of_error (l : Loop (List String) (List DispatchEvent)) {job : JobRecord}
    {e : PyException} (hkey : dispatchKey job.jobId (.int job.retryCount) = .error e) :
    publishJob claimedKeys dispatchTopic runner l job = .error e := by
  simp only [publishJob, hkey, bind, Except.bind]

/-- Which of the jobs a tick publishes: some of those whose keys were free, and
all of them if every job has a key. -/
structure Published (key : JobRecord → String) (keys : List String)
    (jobs published : List JobRecord) : Prop where
  sublist : published.Sublist jobs
  keyed : ∀ job ∈ published, dispatchKey job.jobId (.int job.retryCount) = .ok (key job)
  fresh : ∀ job ∈ published, key job ∉ keys
  nodup : (published.map key).Nodup
  taken : (∀ job ∈ jobs, dispatchKey job.jobId (.int job.retryCount) = .ok (key job)) →
    ∀ job ∈ jobs, key job ∈ (published.map key).reverse ++ keys

section

variable {key : JobRecord → String} {keys : List String} {jobs published : List JobRecord}
  {job : JobRecord}

theorem Published.nil (hkey : dispatchKey job.jobId (.int job.retryCount) ≠ .ok (key job)) :
    Published key keys (job :: jobs) [] where
  sublist := List.nil_sublist _
  keyed job hjob := by cases hjob
  fresh job hjob := by cases hjob
  nodup := List.nodup_nil
  taken hall := absurd (hall job List.mem_cons_self) hkey

theorem Published.skip (h : Published key keys jobs published) (hmem : key job ∈ keys) :
    Published key keys (job :: jobs) published where
  sublist := h.sublist.cons _
  keyed := h.keyed
  fresh := h.fresh
  nodup := h.nodup
  taken hall j hj := by
    rcases List.mem_cons.mp hj with rfl | hj
    · exact List.mem_append_right _ hmem
    · exact h.taken (fun j hj => hall j (List.mem_cons_of_mem _ hj)) j hj

theorem Published.publish (h : Published key (key job :: keys) jobs published)
    (hkey : dispatchKey job.jobId (.int job.retryCount) = .ok (key job)) (hmem : key job ∉ keys) :
    Published key keys (job :: jobs) (job :: published) where
  sublist := h.sublist.cons_cons _
  keyed j hj := by
    rcases List.mem_cons.mp hj with rfl | hj
    · exact hkey
    · exact h.keyed j hj
  fresh j hj := by
    rcases List.mem_cons.mp hj with rfl | hj
    · exact hmem
    · exact fun hkeys => h.fresh j hj (List.mem_cons_of_mem _ hkeys)
  nodup := by
    refine List.nodup_cons.mpr ⟨?_, h.nodup⟩
    intro hdup
    obtain ⟨j, hj, heq⟩ := List.mem_map.mp hdup
    exact h.fresh j hj (heq ▸ List.mem_cons_self)
  taken hall j hj := by
    rcases List.mem_cons.mp hj with rfl | hj
    · simp
    · have hj' := h.taken (fun j hj => hall j (List.mem_cons_of_mem _ hj)) j hj
      simpa [or_assoc, or_comm] using hj'

end

/-- **What the loop publishes**, and which keys it takes. -/
theorem publishJobs_spec (httl : 0 < runner.dispatchDedupeTtlSeconds) (key : JobRecord → String)
    (hkey : ∀ job k, dispatchKey job.jobId (.int job.retryCount) = .ok k → k = key job)
    (jobs : List JobRecord) :
    ∀ l : Loop (List String) (List DispatchEvent), ∃ l' o, ∃ published : List JobRecord,
      publishJobs claimedKeys dispatchTopic runner l jobs = (l', o) ∧
        Published key l.store jobs published ∧
        l'.producer = l.producer ++ published.map .ofJob ∧
        l'.store = (published.map key).reverse ++ l.store := by
  induction jobs with
  | nil =>
      intro l
      exact ⟨l, none, [], rfl, ⟨List.Sublist.refl _, by simp, by simp, List.nodup_nil, by simp⟩,
        by simp, rfl⟩
  | cons job jobs ih =>
      intro l
      cases hjob : dispatchKey job.jobId (.int job.retryCount) with
      | error e =>
          have hstep : publishJob claimedKeys dispatchTopic runner l job = .error e :=
            publishJob_of_error l hjob
          refine ⟨l, some e, [], ?_, .nil (by simp [hjob]), by simp, rfl⟩
          rw [publishJobs, hstep]
      | ok k =>
          obtain rfl : k = key job := hkey job k hjob
          -- the job is a duplicate, or it is published
          by_cases hmem : key job ∈ l.store
          · have hstep := publishJob_of_claimed httl l hjob hmem
            obtain ⟨l', o, published, hrest, hpublished, hlog, hstore⟩ :=
              ih { l with duplicateDispatches := l.duplicateDispatches + 1 }
            refine ⟨l', o, published, ?_, hpublished.skip hmem, hlog, hstore⟩
            rw [publishJobs, hstep]
            exact hrest
          · have hstep := publishJob_of_fresh httl l hjob hmem
            obtain ⟨l', o, published, hrest, hpublished, hlog, hstore⟩ := ih
              { l with
                store := key job :: l.store
                producer := l.producer ++ [.ofJob job]
                publishedCount := l.publishedCount + 1 }
            refine ⟨l', o, job :: published, ?_, hpublished.publish hjob hmem, ?_, ?_⟩
            · rw [publishJobs, hstep]
              exact hrest
            · rw [hlog]
              simp
            · rw [hstore]
              simp

/-- **Any tick**: what it publishes, also when an exception ends it. -/
theorem runOnce_spec (httl : 0 < runner.dispatchDedupeTtlSeconds) {E : Executor} {now : ℤ}
    {T T' : Jobs} {claimedJobs : List JobRecord}
    (hclaim : JobRepository.claimSchedulableJobs T E now runner.maxJobsPerTick =
      .ok (T', claimedJobs))
    (key : JobRecord → String)
    (hkey : ∀ job k, dispatchKey job.jobId (.int job.retryCount) = .ok k → k = key job)
    (keys : List String) (log : List DispatchEvent) :
    ∃ published : List JobRecord, Published key keys claimedJobs published ∧
      (runOnce claimedKeys dispatchTopic runner E now ⟨T, keys, log⟩).1 =
        ⟨T', (published.map key).reverse ++ keys, log ++ published.map .ofJob⟩ := by
  obtain ⟨l', o, published, hrun, hpublished, hlog, hstore⟩ :=
    publishJobs_spec httl key hkey claimedJobs ⟨keys, log, 0, [], 0⟩
  refine ⟨published, hpublished, ?_⟩
  cases o with
  | none => simp only [runOnce, hclaim, hrun, hlog, hstore]
  | some e => simp only [runOnce, hclaim, hrun, hlog, hstore]

/-- **A tick over fresh keys** publishes every job it claims. -/
theorem runOnce_of_fresh (httl : 0 < runner.dispatchDedupeTtlSeconds) {E : Executor} {now : ℤ}
    {T T' : Jobs} {claimedJobs : List JobRecord}
    (hclaim : JobRepository.claimSchedulableJobs T E now runner.maxJobsPerTick =
      .ok (T', claimedJobs))
    (key : JobRecord → String)
    (hkey : ∀ job ∈ claimedJobs, dispatchKey job.jobId (.int job.retryCount) = .ok (key job))
    (hnodup : (claimedJobs.map key).Nodup) {keys : List String}
    (hfresh : ∀ job ∈ claimedJobs, key job ∉ keys) (log : List DispatchEvent) :
    runOnce claimedKeys dispatchTopic runner E now ⟨T, keys, log⟩ =
      (⟨T', (claimedJobs.map key).reverse ++ keys, log ++ claimedJobs.map .ofJob⟩,
        .ok (.published claimedJobs)) := by
  have hloop := publishJobs_of_fresh httl key hkey hnodup ⟨keys, log, 0, [], 0⟩ hfresh
  simp only [runOnce, hclaim, hloop, Nat.zero_add]
  rfl

end Fresh

end SchedulerTickRunner

end KernelQ.ControlPlane
