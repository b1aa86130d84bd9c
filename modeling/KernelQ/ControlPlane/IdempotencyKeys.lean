import KernelQ.Foundation.Text
import KernelQ.Foundation.JsonLiteral

/-!
# Idempotency keys

`idempotency_keys.py`: one key per pipeline stage and `(job_id, attempt)`. The
job id is stripped first, so the key names the id only up to the white space
around it; behind that, a key names its job and its attempt
(`attemptKey_inj`).
-/

namespace KernelQ.ControlPlane

open KernelQ.Foundation

/-- A Python exception: its type and its text. -/
structure PyException where
  type : String
  message : String
  deriving DecidableEq

def valueError (message : String) : PyException := ⟨"ValueError", message⟩

/-! ## Python values -/

/-- `str.isspace` of one character. -/
def isspace (c : Char) : Bool :=
  decide ((9 ≤ c.toNat ∧ c.toNat ≤ 13) ∨ (28 ≤ c.toNat ∧ c.toNat ≤ 32) ∨
    (0x2000 ≤ c.toNat ∧ c.toNat ≤ 0x200a) ∨
    c.toNat ∈ [0x85, 0xa0, 0x1680, 0x2028, 0x2029, 0x202f, 0x205f, 0x3000])

/-- `str.strip`. -/
def strip (s : String) : String := trim isspace s

/-- What `isinstance(_, int)` accepts: `bool` is a subclass of `int`. -/
inductive PyInt
  | int (i : ℤ)
  | bool (b : Bool)
  deriving DecidableEq

namespace PyInt

def toInt : PyInt → ℤ
  | int i => i
  | bool true => 1
  | bool false => 0

/-- `f"{n}"`. -/
def format : PyInt → String
  | int i => String.ofList (intText i)
  | bool true => "True"
  | bool false => "False"

end PyInt

/-! ## The key builders -/

def validateJobId (jobId : String) : Except PyException String :=
  let stripped := strip jobId
  if stripped = "" then .error (valueError "job_id must be a non-empty string")
  else .ok stripped

def validateAttempt (attempt : PyInt) : Except PyException PyInt :=
  if attempt.toInt < 0 then .error (valueError "attempt must be a non-negative integer")
  else .ok attempt

/-- The body that the three builders share; they differ in `stage`. -/
def attemptKey (stage : String) (jobId : String) (attempt : PyInt) :
    Except PyException String := do
  let job ← validateJobId jobId
  let gen ← validateAttempt attempt
  return stage ++ ":" ++ job ++ ":" ++ gen.format

def workerResultKey (jobId : String) (attempt : PyInt) : Except PyException String :=
  attemptKey "worker-result" jobId attempt

def dispatchKey (jobId : String) (attempt : PyInt) : Except PyException String :=
  attemptKey "dispatch" jobId attempt

def executionKey (jobId : String) (attempt : PyInt) : Except PyException String :=
  attemptKey "execution" jobId attempt

/-! ## What a key names -/

theorem attemptKey_eq_ok_iff {stage jobId key : String} {attempt : PyInt} :
    attemptKey stage jobId attempt = .ok key ↔
      strip jobId ≠ "" ∧ 0 ≤ attempt.toInt ∧
        key = stage ++ ":" ++ strip jobId ++ ":" ++ attempt.format := by
  unfold attemptKey validateJobId validateAttempt
  by_cases hjob : strip jobId = ""
  · simp [hjob, bind, Except.bind]
  · by_cases hgen : attempt.toInt < 0
    · simp [hjob, hgen, bind, Except.bind]
    · simp only [hjob, hgen, if_false, bind, Except.bind, pure, Except.pure, Except.ok.injEq]
      constructor
      · rintro rfl
        exact ⟨hjob, not_lt.mp hgen, rfl⟩
      · rintro ⟨-, -, rfl⟩
        rfl

/-- A key exists for every job id that is not blank. -/
theorem attemptKey_of_not_blank (stage : String) {jobId : String} (hjob : strip jobId ≠ "")
    (n : ℕ) : attemptKey stage jobId (.int n) =
      .ok (stage ++ ":" ++ strip jobId ++ ":" ++ (PyInt.int n).format) :=
  attemptKey_eq_ok_iff.mpr ⟨hjob, Int.natCast_nonneg n, rfl⟩

/-- No key is blank: it has a colon. -/
theorem strip_key_ne {stage jobId key : String} {a : PyInt}
    (h : attemptKey stage jobId a = .ok key) : strip key ≠ "" := by
  obtain ⟨-, -, rfl⟩ := attemptKey_eq_ok_iff.mp h
  intro hblank
  have hcolon := (trim_eq_empty_iff isspace _).mp hblank ':' (by simp [String.toList_append])
  exact absurd hcolon (by decide)

/-- An integer is printed with digits, behind a minus sign. -/
theorem not_mem_format_int {c : Char} (hdigit : c.isDigit = false) (hminus : c ≠ '-') (i : ℤ) :
    c ∉ (PyInt.int i).format.toList := by
  have hdigits : ∀ n : ℕ, c ∉ Nat.toDigits 10 n := by
    intro n h
    rw [Nat.isDigit_of_mem_toDigits (by omega) (by omega) h] at hdigit
    cases hdigit
  rw [PyInt.format, String.toList_ofList]
  cases i with
  | ofNat n => exact hdigits n
  | negSucc n =>
      intro h
      rcases List.mem_cons.mp h with h | h
      · exact hminus h
      · exact hdigits (n + 1) h

theorem colon_not_mem_format (a : PyInt) : ':' ∉ a.format.toList := by
  cases a with
  | bool b => cases b <;> decide
  | int i => exact not_mem_format_int (by decide) (by decide) i

theorem format_int_inj {i j : ℤ} (h : (PyInt.int i).format = (PyInt.int j).format) : i = j := by
  have htext : intText i = intText j := by
    simpa [PyInt.format, String.ofList_inj] using h
  rw [← intValue_intText i, htext, intValue_intText]

/-- No integer is printed as a `bool` is. -/
theorem format_inj {a a' : PyInt} (h : a.format = a'.format) : a = a' := by
  have hletter : ∀ b i, (PyInt.bool b).format ≠ (PyInt.int i).format := by
    intro b i heq
    apply not_mem_format_int (c := 'e') (by decide) (by decide) i
    rw [← heq]
    cases b <;> decide
  cases a with
  | int i =>
      cases a' with
      | int j => rw [format_int_inj h]
      | bool b => exact absurd h.symm (hletter b i)
  | bool b =>
      cases a' with
      | int j => exact absurd h (hletter b j)
      | bool b' => cases b <;> cases b' <;> first | rfl | exact absurd h (by decide)

private theorem cut_inj {a : Char} : ∀ {x y z w : List Char}, a ∉ x → a ∉ y →
    x ++ a :: z = y ++ a :: w → x = y ∧ z = w
  | [], [], _, _, _, _, h => ⟨rfl, (List.cons.inj h).2⟩
  | [], b :: y, _, _, _, hy, h => absurd ((List.cons.inj h).1 ▸ List.mem_cons_self) hy
  | b :: x, [], _, _, hx, _, h => absurd ((List.cons.inj h).1 ▸ List.mem_cons_self) hx
  | b :: x, c :: y, z, w, hx, hy, h => by
      obtain ⟨hbc, h⟩ := List.cons.inj h
      obtain ⟨hxy, hzw⟩ := cut_inj (fun hm => hx (List.mem_cons_of_mem _ hm))
        (fun hm => hy (List.mem_cons_of_mem _ hm)) h
      exact ⟨by rw [hbc, hxy], hzw⟩

/-- Text up to the last colon, and behind it. -/
theorem append_colon_inj {s t u v : String} (hu : ':' ∉ u.toList) (hv : ':' ∉ v.toList)
    (h : s ++ ":" ++ u = t ++ ":" ++ v) : s = t ∧ u = v := by
  have hlist : u.toList.reverse ++ ':' :: s.toList.reverse
      = v.toList.reverse ++ ':' :: t.toList.reverse := by
    have h' := congrArg (fun w => w.toList.reverse) h
    simpa [String.toList_append] using h'
  obtain ⟨huv, hst⟩ := cut_inj (by simpa using hu) (by simpa using hv) hlist
  exact ⟨String.toList_inj.mp (List.reverse_inj.mp hst),
    String.toList_inj.mp (List.reverse_inj.mp huv)⟩

/-- Text up to the first colon, and behind it. -/
theorem colon_append_inj {s t u v : String} (hs : ':' ∉ s.toList) (ht : ':' ∉ t.toList)
    (h : s ++ ":" ++ u = t ++ ":" ++ v) : s = t ∧ u = v := by
  have hlist : s.toList ++ ':' :: u.toList = t.toList ++ ':' :: v.toList := by
    have h' := congrArg String.toList h
    simpa [String.toList_append] using h'
  obtain ⟨hst, huv⟩ := cut_inj hs ht hlist
  exact ⟨String.toList_inj.mp hst, String.toList_inj.mp huv⟩

/-- **A key names the stripped job id and the attempt.** -/
theorem attemptKey_inj {stage jobId jobId' key : String} {a a' : PyInt}
    (h : attemptKey stage jobId a = .ok key) (h' : attemptKey stage jobId' a' = .ok key) :
    strip jobId = strip jobId' ∧ a.format = a'.format := by
  obtain ⟨-, -, rfl⟩ := attemptKey_eq_ok_iff.mp h
  obtain ⟨-, -, heq⟩ := attemptKey_eq_ok_iff.mp h'
  obtain ⟨hjob, hgen⟩ := append_colon_inj (colon_not_mem_format a) (colon_not_mem_format a') heq
  refine ⟨String.toList_inj.mp ?_, hgen⟩
  have hl := congrArg String.toList hjob
  simpa [String.toList_append] using hl

end KernelQ.ControlPlane
