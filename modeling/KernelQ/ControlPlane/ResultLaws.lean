import KernelQ.ControlPlane.System

/-!
# Late and repeated results

No `UPDATE` of the result handler looks at the state it overwrites, so a result
that comes late or twice is applied like any other. `Absorbed` lists the cases
in which that makes no difference; it decides both whether a terminal row
survives a result and whether a replay is harmless.
-/

namespace KernelQ.ControlPlane

open KernelQ.Foundation

/-- What a result must not change: `state`, `retry_count` and `retry_after`. -/
structure SameOutcome (r r' : JobRow) : Prop where
  state : r'.state = r.state
  retryCount : r'.retryCount = r.retryCount
  retryAfter : r'.retryAfter = r.retryAfter

/-- The row is already what the result would make of it. -/
def Absorbed (event : WorkerResultEvent) (r : JobRow) : Prop :=
  (event.status = "succeeded" ∧ r.state = JobState.succeeded.value) ∨
  (event.status = "terminal_failure" ∧ r.state = JobState.failed.value) ∨
  (event.status = "retryable_failure" ∧ r.state = JobState.deadLettered.value ∧
    r.maxRetries ≤ r.retryCount)

instance (event : WorkerResultEvent) (r : JobRow) : Decidable (Absorbed event r) :=
  inferInstanceAs (Decidable (_ ∨ _ ∨ _))

theorem sameOutcome_setState_iff {s : JobState} {now : ℤ} {r : JobRow} :
    SameOutcome r ((setState s.value now).set r) ↔ r.state = s.value :=
  ⟨fun h => h.state.symm, fun h => ⟨h.symm, rfl, rfl⟩⟩

theorem sameOutcome_setRetryPolicy_iff {retryAfter now : ℤ} {r : JobRow} :
    SameOutcome r ((setRetryPolicy retryAfter now).set r) ↔
      r.state = JobState.deadLettered.value ∧ r.maxRetries ≤ r.retryCount := by
  by_cases hbudget : r.retryCount < r.maxRetries
  · constructor
    · intro h
      have hcount := h.retryCount
      simp only [setRetryPolicy, if_pos hbudget] at hcount
      omega
    · rintro ⟨-, h⟩
      omega
  · constructor
    · intro h
      have hstate := h.state
      simp only [setRetryPolicy, if_neg hbudget] at hstate
      exact ⟨hstate.symm, not_lt.mp hbudget⟩
    · rintro ⟨hstate, -⟩
      refine ⟨?_, ?_, ?_⟩ <;> simp [setRetryPolicy, hbudget, hstate]

/-- **A result leaves a row as it is exactly when the row absorbs it.** -/
theorem sameOutcome_resultUpdate_iff {event : WorkerResultEvent} (hv : event.Valid) (r : JobRow)
    (now clock : ℤ) :
    SameOutcome r ((ResultStateHandler.resultUpdate event now clock).set r) ↔ Absorbed event r := by
  have hstatus := hv.status
  simp only [allowedStatuses, List.mem_cons, List.not_mem_nil, or_false] at hstatus
  rcases hstatus with hs | hs | hs
  · simp [ResultStateHandler.resultUpdate, Absorbed, hs, sameOutcome_setRetryPolicy_iff]
  · simp [ResultStateHandler.resultUpdate, Absorbed, hs, sameOutcome_setState_iff]
  · simp [ResultStateHandler.resultUpdate, Absorbed, hs, sameOutcome_setState_iff]

/-- Applying the event to the table leaves the outcome of its job's row `r`. -/
def LeavesOutcome (T : Jobs) (now clock : ℤ) (event : WorkerResultEvent) (r : JobRow) : Prop :=
  ∃ r', (ResultStateHandler.handle T now clock event).1.find? event.jobId = some r' ∧
    SameOutcome r r'

theorem leavesOutcome_iff {T : Jobs} {event : WorkerResultEvent} (hv : event.Valid) {r : JobRow}
    (hr : T.find? event.jobId = some r) {now clock : ℤ} :
    LeavesOutcome T now clock event r ↔ Absorbed event r := by
  rw [LeavesOutcome, ResultStateHandler.find?_handle T now clock hv, if_pos rfl, hr,
    ← sameOutcome_resultUpdate_iff hv r now clock]
  simp

/-! ## Results for terminal rows -/

def IsTerminal (r : JobRow) : Prop := ∃ s ∈ terminalStates, r.state = s.value

/-- A result step leaves the row of its job, if it is terminal. -/
def KeepsTerminalRow (s : System) : Action → Prop
  | .result event now clock =>
      ∀ r, s.jobs.find? event.1.jobId = some r → IsTerminal r →
        LeavesOutcome s.jobs now clock event.1 r
  | _ => True

/-- A result step whose row is terminal finds a row that absorbs it. -/
def TerminalRowAbsorbs (s : System) : Action → Prop
  | .result event _ _ =>
      ∀ r, s.jobs.find? event.1.jobId = some r → IsTerminal r → Absorbed event.1 r
  | _ => True

theorem keepsTerminalRow_iff {s : System} {a : Action} :
    KeepsTerminalRow s a ↔ TerminalRowAbsorbs s a := by
  cases a with
  | result event now clock =>
      constructor
      · intro h r hr hterminal
        exact (leavesOutcome_iff event.2 hr).mp (h r hr hterminal)
      · intro h r hr hterminal
        exact (leavesOutcome_iff event.2 hr).mpr (h r hr hterminal)
  | request q => exact Iff.rfl
  | write i now => exact Iff.rfl
  | claim E now limit => exact Iff.rfl
  | scan E stamp now limit => exact Iff.rfl
  | requeueDeadLettered jobId now => exact Iff.rfl

/-- **When results respect terminal states**: in a run, no result changes the
outcome of a terminal row exactly when every result that meets a terminal row
meets one that absorbs it. -/
theorem results_keep_terminal_rows_iff (T : Jobs) (as : List Action) :
    System.machine.EachStep KeepsTerminalRow (System.start T) as ↔
      System.machine.EachStep TerminalRowAbsorbs (System.start T) as := by
  constructor
  · exact fun h => h.mono fun _ _ => keepsTerminalRow_iff.mp
  · exact fun h => h.mono fun _ _ => keepsTerminalRow_iff.mpr

/-- The job is canceled before its worker reports success. -/
def lateSuccess : List Action :=
  Scenario.enqueue ++ Scenario.cancel ++ [.result Scenario.succeeded 40 40]

/-- The late success takes the job out of `canceled`. -/
theorem late_success_leaves_canceled :
    ¬ System.machine.EachStep KeepsTerminalRow (System.start .empty) lateSuccess := by
  intro h
  obtain ⟨s, r, hs, hr, hcanceled⟩ := System.run_row JobRow.state "canceled" (.start .empty)
    (Scenario.enqueue ++ Scenario.cancel) "job" (by decide +kernel)
  rcases keepsTerminalRow_iff.mp (h.at hs) r hr ⟨.canceled, by decide, hcanceled⟩ with
    ⟨-, hstate⟩ | ⟨hstatus, -⟩ | ⟨hstatus, -⟩
  · rw [hcanceled] at hstate
    exact absurd hstate (by decide)
  · exact absurd hstatus (by decide)
  · exact absurd hstatus (by decide)

/-! ## Replays -/

/-- Two deliveries of one result. -/
structure SameResult (e e' : WorkerResultEvent) : Prop where
  jobId : e'.jobId = e.jobId
  attempt : e'.attempt = e.attempt
  status : e'.status = e.status

/-- The actions `past` contain an application of this result that did not raise. -/
def AppliedBefore (s₀ : System) (past : List Action) (event : WorkerResultEvent) : Prop :=
  ∃ pre first now clock mid s, past = pre ++ .result first now clock :: mid ∧
    System.machine.run s₀ pre = some s ∧
    (ResultStateHandler.handle s.jobs now clock first.1).2 = .ok () ∧ SameResult first.1 event

/-- Every replay in the run satisfies `P`: the state it meets, its own action,
and the row of its job. -/
def EachReplay (P : System → ValidResult → ℤ → ℤ → JobRow → Prop) (s₀ : System)
    (as : List Action) : Prop :=
  ∀ past event now clock post s r, as = past ++ .result event now clock :: post →
    System.machine.run s₀ past = some s → AppliedBefore s₀ past event.1 →
    s.jobs.find? event.1.jobId = some r → P s event now clock r

/-- **When replays are harmless**: in a run, every replayed result leaves the
row it meets as it was exactly when every replay meets a row that absorbs it. -/
theorem replays_harmless_iff (T : Jobs) (as : List Action) :
    EachReplay (fun s event now clock r => LeavesOutcome s.jobs now clock event.1 r)
        (System.start T) as ↔
      EachReplay (fun _ event _ _ r => Absorbed event.1 r) (System.start T) as := by
  constructor
  · intro h past event now clock post s r has hs happlied hr
    exact (leavesOutcome_iff event.2 hr).mp (h past event now clock post s r has hs happlied hr)
  · intro h past event now clock post s r has hs happlied hr
    exact (leavesOutcome_iff event.2 hr).mpr (h past event now clock post s r has hs happlied hr)

/-- One failed attempt, reported twice. -/
def repeatedFailure : List Action :=
  Scenario.enqueue ++ [Scenario.claim, .result Scenario.retryable 40 40] ++
    [.result Scenario.retryable 50 50]

/-- The second report takes another unit of the retry budget. -/
theorem repeated_failure_not_harmless :
    ¬ EachReplay (fun s event now clock r => LeavesOutcome s.jobs now clock event.1 r)
      (System.start .empty) repeatedFailure := by
  intro h
  obtain ⟨s, r, hs, hr, hstate⟩ := System.run_row JobRow.state "retry_scheduled" (.start .empty)
    (Scenario.enqueue ++ [Scenario.claim, .result Scenario.retryable 40 40]) "job"
    (by decide +kernel)
  obtain ⟨s₁, r₁, hs₁, hr₁, -⟩ := System.run_row JobRow.state "dispatched" (.start .empty)
    (Scenario.enqueue ++ [Scenario.claim]) "job" (by decide +kernel)
  have happlied : AppliedBefore (System.start .empty)
      (Scenario.enqueue ++ [Scenario.claim, .result Scenario.retryable 40 40])
      Scenario.retryable.1 :=
    ⟨Scenario.enqueue ++ [Scenario.claim], Scenario.retryable, 40, 40, [], s₁, rfl, hs₁,
      (ResultStateHandler.handle_ok_iff _ _ _ Scenario.retryable.2).mpr ⟨r₁, hr₁⟩, rfl, rfl, rfl⟩
  rcases (leavesOutcome_iff Scenario.retryable.2 hr).mp
    (h _ Scenario.retryable 50 50 [] s r rfl hs happlied hr) with
    ⟨hstatus, -⟩ | ⟨hstatus, -⟩ | ⟨-, hdead, -⟩
  · exact absurd hstatus (by decide)
  · exact absurd hstatus (by decide)
  · rw [hstate] at hdead
    exact absurd hdead (by decide)

end KernelQ.ControlPlane
