import KernelQ.Pipeline.DispatchContract
import KernelQ.Worker.ExecutionIdempotencyKey

/-!
# Execution keys on both sides

`ExecutionIdempotencyKey` of the worker and `execution_key` of the control plane. They
trim with different notions of white space: the separators U+001C to U+001F are white
space in Python only.
-/

namespace KernelQ.Pipeline

open KernelQ.Foundation KernelQ.ControlPlane

/-- Both reject, or both return the same key. -/
def KeysAgree (jobId : String) (attempt : ℤ) : Prop :=
  (∃ e e', Worker.executionIdempotencyKey jobId attempt = .error e ∧
    executionKey jobId (.int attempt) = .error e') ∨
  ∃ key, Worker.executionIdempotencyKey jobId attempt = .ok key ∧
    executionKey jobId (.int attempt) = .ok key

/-- The information separators of ASCII. -/
def isSeparator (c : Char) : Bool :=
  decide (28 ≤ c.toNat ∧ c.toNat ≤ 31)

/-- A separator with nothing but Go's white space before it, or behind it. -/
def SeparatorOnEdge (s : String) : Prop :=
  ∃ pre c post, s.toList = pre ++ c :: post ∧ isSeparator c = true ∧
    ((∀ x ∈ pre, Worker.isSpace x = true) ∨ ∀ x ∈ post, Worker.isSpace x = true)

variable {jobId : String} {attempt : ℤ}

theorem isSeparator_iff {c : Char} :
    isSeparator c = true ↔ Worker.isSpace c = false ∧ isspace c = true := by
  simp only [isSeparator, Worker.isSpace, isspace, decide_eq_true_eq, decide_eq_false_iff_not,
    List.mem_cons, List.not_mem_nil, or_false]
  omega

theorem strip_eq_trimSpace_iff {s : String} :
    strip s = Worker.trimSpace s ↔ ¬ SeparatorOnEdge s := by
  have hedge : SeparatorOnEdge s ↔ OnEdge Worker.isSpace isspace s := by
    simp only [SeparatorOnEdge, OnEdge, isSeparator_iff, and_assoc]
  rw [hedge]
  exact trim_eq_trim_iff isspace_of_isSpace

/-- The two keys of an attempt are built alike, from the ids as trimmed. -/
theorem keysAgree_iff_trim (hattempt : 0 ≤ attempt) :
    KeysAgree jobId attempt ↔ strip jobId = Worker.trimSpace jobId := by
  constructor
  · rintro (⟨e, e', hgo, hpython⟩ | ⟨key, hgo, hpython⟩)
    · have hblank : Worker.trimSpace jobId = "" := by
        by_contra hne
        rw [Worker.executionIdempotencyKey_eq_ok_iff.mpr ⟨hne, hattempt, rfl⟩] at hgo
        cases hgo
      have hblank' : strip jobId = "" := by
        by_contra hne
        have hok : executionKey jobId (.int attempt) = .ok _ :=
          attemptKey_eq_ok_iff.mpr ⟨hne, hattempt, rfl⟩
        rw [hok] at hpython
        cases hpython
      rw [hblank, hblank']
    · obtain ⟨-, -, hkey⟩ := Worker.executionIdempotencyKey_eq_ok_iff.mp hgo
      obtain ⟨-, -, hkey'⟩ := attemptKey_eq_ok_iff.mp hpython
      rw [hkey] at hkey'
      have hlist := congrArg String.toList hkey'
      simp only [String.toList_append, PyInt.format] at hlist
      have hjob : "execution:".toList ++ (Worker.trimSpace jobId).toList =
          "execution".toList ++ ":".toList ++ (strip jobId).toList :=
        List.append_cancel_right (List.append_cancel_right hlist)
      exact (String.toList_inj.mp (List.append_cancel_left
        (show "execution:".toList ++ _ = "execution:".toList ++ _ from hjob))).symm
  · intro heq
    by_cases hblank : Worker.trimSpace jobId = ""
    · left
      refine ⟨.jobIdBlank, valueError "job_id must be a non-empty string", ?_, ?_⟩
      · rw [Worker.executionIdempotencyKey, if_pos hblank]
      · simp only [executionKey, attemptKey, validateJobId, heq, hblank, if_true, bind, Except.bind]
    · right
      refine ⟨_, Worker.executionIdempotencyKey_eq_ok_iff.mpr ⟨hblank, hattempt, rfl⟩, ?_⟩
      refine attemptKey_eq_ok_iff.mpr ⟨heq ▸ hblank, hattempt, ?_⟩
      rw [heq]
      rfl

/-- **When the keys agree**: the attempt is negative, or no separator is on an edge of the
job id. -/
theorem keys_agree_iff (jobId : String) (attempt : ℤ) :
    KeysAgree jobId attempt ↔ attempt < 0 ∨ ¬ SeparatorOnEdge jobId := by
  by_cases hattempt : 0 ≤ attempt
  · rw [keysAgree_iff_trim hattempt, strip_eq_trimSpace_iff]
    exact (or_iff_right (not_lt.mpr hattempt)).symm
  · refine iff_of_true (.inl ?_) (.inl (not_le.mp hattempt))
    have hgo : ∀ key, Worker.executionIdempotencyKey jobId attempt ≠ .ok key :=
      fun key h => hattempt (Worker.executionIdempotencyKey_eq_ok_iff.mp h).2.1
    have hpython : ∀ key, executionKey jobId (.int attempt) ≠ .ok key :=
      fun key h => hattempt (attemptKey_eq_ok_iff.mp h).2.1
    cases hg : Worker.executionIdempotencyKey jobId attempt with
    | ok key => exact absurd hg (hgo key)
    | error e =>
        cases hp : executionKey jobId (.int attempt) with
        | ok key => exact absurd hp (hpython key)
        | error e' => exact ⟨e, e', rfl, rfl⟩

/-- Behind a file separator the job is another one in Go. -/
theorem separated_keys_disagree :
    Worker.executionIdempotencyKey "\x1cjob" 0 = .ok "execution:\x1cjob:0" ∧
      executionKey "\x1cjob" (.int 0) = .ok "execution:job:0" ∧ ¬ KeysAgree "\x1cjob" 0 := by
  have hgo : Worker.executionIdempotencyKey "\x1cjob" 0 = .ok "execution:\x1cjob:0" := by
    decide +kernel
  have hpython : executionKey "\x1cjob" (.int 0) = .ok "execution:job:0" := by decide +kernel
  refine ⟨hgo, hpython, ?_⟩
  rintro (⟨e, e', h, -⟩ | ⟨key, h, h'⟩)
  · rw [hgo] at h
    cases h
  · rw [hgo] at h
    rw [hpython] at h'
    rw [← Except.ok.inj h] at h'
    exact absurd (Except.ok.inj h') (by decide +kernel)

end KernelQ.Pipeline
