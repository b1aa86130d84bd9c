import Mathlib.Data.List.Chain
import Mathlib.Data.String.Basic
import KernelQ.ControlPlane.IdempotencyKeys
import KernelQ.Foundation.JsonEscape
import KernelQ.Foundation.JsonStyle
import KernelQ.Foundation.OrderedSelection

/-!
# Log lines

`logging_utils.py`. A string is quoted if it has a blank in it, and printed as it is otherwise,
whatever else it has in it: a line break stays one, and a quotation mark can pass for the
beginning of a quoted string (`Mimics`).
-/

namespace KernelQ.ControlPlane

open KernelQ.Foundation

/-- A `float`; a finite one is given by its `repr`. -/
inductive PyFloat
  | finite (repr : DecimalLiteral)
  | inf
  | negInf
  | nan

namespace PyFloat

/-- `str(x)`. -/
def str : PyFloat → List Char
  | finite repr => repr.text
  | inf => ['i', 'n', 'f']
  | negInf => ['-', 'i', 'n', 'f']
  | nan => ['n', 'a', 'n']

def dumps : PyFloat → List Char
  | finite repr => repr.text
  | inf => ['I', 'n', 'f', 'i', 'n', 'i', 't', 'y']
  | negInf => ['-', 'I', 'n', 'f', 'i', 'n', 'i', 't', 'y']
  | nan => ['N', 'a', 'N']

end PyFloat

inductive LogValue
  | none
  | bool (b : Bool)
  | int (i : ℤ)
  | float (x : PyFloat)
  | str (s : String)
  | list (items : List LogValue)
  | dict (entries : List (String × LogValue))

def boolText : Bool → List Char
  | true => ['t', 'r', 'u', 'e']
  | false => ['f', 'a', 'l', 's', 'e']

def nullText : List Char := ['n', 'u', 'l', 'l']

namespace LogValue

/-- `", ".join`, between brackets. -/
def enclose (opening closing : Char) (parts : List (List Char)) : List Char :=
  opening :: ([',', ' '].intercalate parts ++ [closing])

/-- `sort_keys`. -/
def sortKeys (entries : List (String × List Char)) : List (String × List Char) :=
  (SortKey.ascending Prod.fst).sort entries

mutual

/-- `json.dumps(value, sort_keys=True)`. -/
def dumps : LogValue → List Char
  | none => nullText
  | bool b => boolText b
  | int i => intText i
  | float x => x.dumps
  | str s => Style.python.quote s
  | list items => enclose '[' ']' (dumpsItems items)
  | dict entries =>
      enclose '{' '}' ((sortKeys (dumpsEntries entries)).map fun e =>
        Style.python.quote e.1 ++ ':' :: ' ' :: e.2)

def dumpsItems : List LogValue → List (List Char)
  | [] => []
  | v :: vs => v.dumps :: dumpsItems vs

def dumpsEntries : List (String × LogValue) → List (String × List Char)
  | [] => []
  | (k, v) :: es => (k, v.dumps) :: dumpsEntries es

end

end LogValue

def formatLogValue : LogValue → List Char
  | .none => nullText
  | .bool b => boolText b
  | .str s => if ' ' ∈ s.toList then Style.python.quote s else s.toList
  | .list items => (LogValue.list items).dumps
  | .dict entries => (LogValue.dict entries).dumps
  | .int i => intText i
  | .float x => x.str

/-- The `**fields` of a call: `event` is the name of a parameter. -/
structure LogFields where
  names : List String
  nodup : names.Nodup
  event_notMem : "event" ∉ names
  value : String → LogValue

/-- `f"{key}={_format_log_value(value)}"`. -/
def logPart (key : String) (value : LogValue) : List Char :=
  key.toList ++ '=' :: formatLogValue value

/-- `sorted(fields)`. -/
def sortedNames (names : List String) : List String := (SortKey.ascending id).sort names

def formatLogEvent (event : String) (fields : LogFields) : Except PyException String :=
  if strip event = "" then .error (valueError "event must be a non-blank string")
  else
    let parts := logPart "event" (.str event) ::
      (sortedNames fields.names).map fun key => logPart key (fields.value key)
    .ok (String.ofList ([' '].intercalate parts))

/-- The parts behind the event. -/
def fieldsText (names : List String) (value : String → LogValue) : List Char :=
  names.flatMap fun key => ' ' :: logPart key (value key)

/-- **A log line**: the event, and each field behind a blank. -/
theorem formatLogEvent_eq {event : String} (h : strip event ≠ "") (fields : LogFields) :
    formatLogEvent event fields = .ok (String.ofList (logPart "event" (.str event) ++
      fieldsText (sortedNames fields.names) fields.value)) := by
  rw [formatLogEvent, if_neg h]
  simp only [intercalate_cons, List.flatMap_map]
  rfl

/-! ## Line breaks -/

/-- What `str.splitlines` splits at. -/
def lineBreaks : List Char :=
  ['\n', '\r', '\x0b', '\x0c', '\x1c', '\x1d', '\x1e', '\x85', '\u2028', '\u2029']

def HasLineBreak (text : List Char) : Prop := ∃ c ∈ text, c ∈ lineBreaks

/-- From the blank to the tilde: all that `json.dumps` writes. -/
def IsPrintable (c : Char) : Prop := 0x20 ≤ c.toNat ∧ c.toNat ≤ 0x7e

instance (c : Char) : Decidable (IsPrintable c) := inferInstanceAs (Decidable (_ ∧ _))

theorem printable_of_all {text : List Char}
    (h : (text.all fun c => decide (IsPrintable c)) = true) : ∀ c ∈ text, IsPrintable c :=
  List.all_iff_forall_prop.mp h

theorem not_hasLineBreak {text : List Char} (h : ∀ c ∈ text, IsPrintable c) :
    ¬ HasLineBreak text := by
  rintro ⟨c, hc, hbreak⟩
  have hnone : ∀ d ∈ lineBreaks, ¬ IsPrintable d := List.all_iff_forall_prop.mp (by decide)
  exact hnone c hbreak (h c hc)

theorem printable_encode (c : Char) : ∀ d ∈ (pythonForm c).encode c, IsPrintable d := by
  have hescape : ∀ d ∈ escapeChars, IsPrintable d := printable_of_all (by decide)
  intro d hd
  rcases raw_or_encode_subset (fits_pythonForm c) with hraw | hsubset
  · rw [hraw] at hd
    rw [List.mem_singleton.mp hd]
    unfold pythonForm at hraw
    split at hraw
    · cases hraw
    · split at hraw
      · assumption
      · split at hraw <;> cases hraw
  · exact hescape d (hsubset hd)

theorem printable_quote (s : String) : ∀ c ∈ Style.python.quote s, IsPrintable c := by
  intro c hc
  rw [Style.quote_eq, List.mem_cons, List.mem_append, List.mem_singleton] at hc
  rcases hc with rfl | hc | rfl
  · decide
  · obtain ⟨d, -, hd⟩ := List.mem_flatMap.mp hc
    exact printable_encode d c hd
  · decide

theorem printable_of_isDigit {c : Char} (h : c.isDigit = true) : IsPrintable c := by
  simp only [Char.isDigit, Bool.and_eq_true, decide_eq_true_eq, UInt32.le_iff_toNat_le] at h
  exact ⟨le_trans (by decide) h.1, le_trans h.2 (by decide)⟩

theorem printable_intText (i : ℤ) : ∀ c ∈ intText i, IsPrintable c := by
  have hdigits : ∀ n, ∀ c ∈ Nat.toDigits 10 n, IsPrintable c := fun n c hc =>
    printable_of_isDigit (Nat.isDigit_of_mem_toDigits (by omega) (by omega) hc)
  cases i with
  | ofNat n => exact hdigits n
  | negSucc n =>
      intro c hc
      rcases List.mem_cons.mp hc with rfl | hc
      · decide
      · exact hdigits _ c hc

theorem printable_of_next (s t : NumState) (c : Char) (h : s.next c = some t) : IsPrintable c := by
  by_contra hc
  have hdigit : ¬ c.isDigit = true := fun h => hc (printable_of_isDigit h)
  have hother : ∀ d ∈ ['-', '+', '0', '.', 'e', 'E'], c ≠ d := by
    have hall : ∀ d ∈ ['-', '+', '0', '.', 'e', 'E'], IsPrintable d :=
      printable_of_all (by decide)
    rintro d hd rfl
    exact hc (hall c hd)
  simp only [List.mem_cons, List.not_mem_nil, or_false, forall_eq_or_imp, forall_eq] at hother
  cases s <;> simp [NumState.next, hdigit, hother] at h

theorem printable_decimal (d : DecimalLiteral) : ∀ c ∈ d.text, IsPrintable c := by
  have hscan := d.decimal
  simp only [isDecimalLiteral, decide_eq_true_eq] at hscan
  rcases hscan with h | h <;> exact NumState.forall_of_scan printable_of_next h

theorem printable_enclose {opening closing : Char} (hopening : IsPrintable opening)
    (hclosing : IsPrintable closing) {parts : List (List Char)}
    (hparts : ∀ part ∈ parts, ∀ c ∈ part, IsPrintable c) :
    ∀ c ∈ LogValue.enclose opening closing parts, IsPrintable c := by
  intro c hc
  rw [LogValue.enclose, List.mem_cons, List.mem_append, List.mem_singleton] at hc
  rcases hc with rfl | hc | rfl
  · exact hopening
  · rcases mem_intercalate hc with hc | ⟨part, hpart, hc⟩
    · have hseparator : ∀ d ∈ [',', ' '], IsPrintable d := printable_of_all (by decide)
      exact hseparator c hc
    · exact hparts part hpart c hc
  · exact hclosing

mutual

/-- **JSON is printable**, whatever is in it. -/
theorem printable_dumps : ∀ v : LogValue, ∀ c ∈ v.dumps, IsPrintable c
  | .none => printable_of_all (by decide)
  | .bool true => printable_of_all (by decide)
  | .bool false => printable_of_all (by decide)
  | .int i => printable_intText i
  | .float (.finite repr) => printable_decimal repr
  | .float .inf => printable_of_all (by decide)
  | .float .negInf => printable_of_all (by decide)
  | .float .nan => printable_of_all (by decide)
  | .str s => printable_quote s
  | .list items => printable_enclose (by decide) (by decide) (printable_dumpsItems items)
  | .dict entries => by
      apply printable_enclose (by decide) (by decide)
      intro part hpart c hc
      obtain ⟨e, he, rfl⟩ := List.mem_map.mp hpart
      simp only [List.mem_append, List.mem_cons] at hc
      rcases hc with hc | rfl | rfl | hc
      · exact printable_quote e.1 c hc
      · decide
      · decide
      · exact printable_dumpsEntries entries e (SortKey.mem_sort _ |>.mp he) c hc

theorem printable_dumpsItems : ∀ vs : List LogValue,
    ∀ part ∈ LogValue.dumpsItems vs, ∀ c ∈ part, IsPrintable c
  | [] => by
      intro part h
      cases h
  | v :: vs => by
      intro part h
      rcases List.mem_cons.mp h with rfl | h
      · exact printable_dumps v
      · exact printable_dumpsItems vs part h

theorem printable_dumpsEntries : ∀ es : List (String × LogValue),
    ∀ e ∈ LogValue.dumpsEntries es, ∀ c ∈ e.2, IsPrintable c
  | [] => by
      intro e h
      cases h
  | (k, v) :: es => by
      intro e h
      rcases List.mem_cons.mp h with rfl | h
      · exact printable_dumps v
      · exact printable_dumpsEntries es e h

end

/-- A string that is printed as it is, with a line break in it. -/
def BreaksLine (s : String) : Prop := ' ' ∉ s.toList ∧ HasLineBreak s.toList

theorem hasLineBreak_append {text text' : List Char} :
    HasLineBreak (text ++ text') ↔ HasLineBreak text ∨ HasLineBreak text' := by
  simp only [HasLineBreak, List.mem_append, or_and_right, exists_or]

theorem hasLineBreak_cons {c : Char} (hc : c ∉ lineBreaks) {text : List Char} :
    HasLineBreak (c :: text) ↔ HasLineBreak text := by
  simp only [HasLineBreak, List.mem_cons, or_and_right, exists_or, exists_eq_left, hc, false_or]

/-- **A line break comes through** only in a string that is printed as it is. -/
theorem hasLineBreak_formatLogValue {v : LogValue} :
    HasLineBreak (formatLogValue v) ↔ ∃ s, v = .str s ∧ BreaksLine s := by
  have hother : (∀ s, v ≠ .str s) → (∀ c ∈ formatLogValue v, IsPrintable c) →
      (HasLineBreak (formatLogValue v) ↔ ∃ s, v = .str s ∧ BreaksLine s) := by
    intro hv hprintable
    apply iff_of_false (not_hasLineBreak hprintable)
    rintro ⟨s, rfl, -⟩
    exact hv s rfl
  cases v with
  | none => exact hother (by simp) (printable_of_all (by decide))
  | bool b => cases b <;> exact hother (by simp) (printable_of_all (by decide))
  | int i => exact hother (by simp) (printable_intText i)
  | float x =>
      cases x with
      | finite repr => exact hother (by simp) (printable_decimal repr)
      | _ => exact hother (by simp) (printable_of_all (by decide))
  | list items => exact hother (by simp) (printable_dumps (.list items))
  | dict entries => exact hother (by simp) (printable_dumps (.dict entries))
  | str s =>
      have hstr : (∃ t, LogValue.str s = .str t ∧ BreaksLine t) ↔ BreaksLine s := by
        simp only [LogValue.str.injEq, exists_eq_left']
      rw [hstr, formatLogValue, BreaksLine]
      split
      · rename_i hblank
        apply iff_of_false (not_hasLineBreak (printable_quote s))
        exact fun h => h.1 hblank
      · rename_i hblank
        exact (and_iff_right hblank).symm

theorem hasLineBreak_logPart {key : String} {value : LogValue} :
    HasLineBreak (logPart key value) ↔
      HasLineBreak key.toList ∨ ∃ s, value = .str s ∧ BreaksLine s := by
  rw [logPart, hasLineBreak_append, hasLineBreak_cons (by decide), hasLineBreak_formatLogValue]

theorem hasLineBreak_fieldsText {names : List String} {value : String → LogValue} :
    HasLineBreak (fieldsText names value) ↔ ∃ key ∈ names,
      HasLineBreak key.toList ∨ ∃ s, value key = .str s ∧ BreaksLine s := by
  induction names with
  | nil => simp [fieldsText, HasLineBreak]
  | cons key names ih =>
      rw [fieldsText, List.flatMap_cons, List.cons_append, hasLineBreak_cons (by decide),
        hasLineBreak_append, hasLineBreak_logPart, List.exists_mem_cons_iff, ← ih]
      rfl

/-! ## Which values a line has -/

/-- `s`, printed as it is, is what the quoted `t` begins with, up to its first blank. -/
def Mimics (s t : String) : Prop :=
  ' ' ∉ s.toList ∧ ' ' ∈ t.toList ∧
    (Style.python.quote t).takeWhile (fun c => decide (c ≠ ' ')) = s.toList

theorem formatLogValue_of_mem {s : String} (h : ' ' ∈ s.toList) :
    formatLogValue (.str s) = Style.python.quote s := if_pos h

theorem formatLogValue_of_notMem {s : String} (h : ' ' ∉ s.toList) :
    formatLogValue (.str s) = s.toList := if_neg h

/-- A text without a blank ends at the first one. -/
theorem takeWhile_append_of_notMem {w r : List Char} (hw : ' ' ∉ w)
    (hr : ∀ c ∈ r.head?, c = ' ') :
    (w ++ r).takeWhile (fun c => decide (c ≠ ' ')) = w := by
  rw [List.takeWhile_append_of_pos]
  · cases r with
    | nil => simp
    | cons c r =>
        rw [List.takeWhile_cons_of_neg (by simp [hr c rfl]), List.append_nil]
  · intro c hc
    apply decide_eq_true
    rintro rfl
    exact hw hc

theorem python_body_space (cs : List Char) :
    Style.python.body (' ' :: cs) = ' ' :: Style.python.body cs := rfl

theorem notMem_python_body {cs : List Char} (h : ' ' ∉ cs) : ' ' ∉ Style.python.body cs := by
  intro hmem
  obtain ⟨c, hc, hspace⟩ := List.mem_flatMap.mp hmem
  rcases raw_or_encode_subset (fits_pythonForm c) with hraw | hsubset
  · rw [show Style.python.form c = .raw from hraw] at hspace
    rw [List.mem_singleton.mp hspace] at h
    exact h hc
  · exact absurd (hsubset hspace) (by decide)

/-- A string with a blank, quoted: what is in front of the first blank, and what is behind. -/
theorem quote_split {t : String} (ht : ' ' ∈ t.toList) :
    ∃ w cs, ' ' ∉ w ∧ Style.python.quote t = w ++ ' ' :: (Style.python.body cs ++ ['"']) := by
  obtain ⟨as, bs, hsplit, has⟩ := List.eq_append_cons_of_mem ht
  refine ⟨'"' :: Style.python.body as, bs, ?_, ?_⟩
  · rw [List.mem_cons, not_or]
    exact ⟨by decide, notMem_python_body has⟩
  · rw [Style.quote_eq, hsplit, Style.body_append, python_body_space]
    simp

/-- A value that is printed as it is against one that is quoted. -/
theorem mimics_of_append_eq {s t : String} {r r' : List Char} (hs : ' ' ∉ s.toList)
    (ht : ' ' ∈ t.toList) (hr : ∀ c ∈ r.head?, c = ' ')
    (h : formatLogValue (.str s) ++ r = formatLogValue (.str t) ++ r') :
    Mimics s t ∧ ∃ cs, r = ' ' :: (Style.python.body cs ++ '"' :: r') := by
  rw [formatLogValue_of_notMem hs, formatLogValue_of_mem ht] at h
  obtain ⟨w, cs, hw, hquote⟩ := quote_split ht
  rw [hquote, List.append_assoc] at h
  have hsw : s.toList = w := by
    rw [← takeWhile_append_of_notMem hs hr, h]
    apply takeWhile_append_of_notMem hw
    intro c hc
    exact (Option.some.inj hc).symm
  refine ⟨⟨hs, ht, ?_⟩, cs, ?_⟩
  · rw [hquote, hsw]
    apply takeWhile_append_of_notMem hw
    intro c hc
    exact (Option.some.inj hc).symm
  · rw [hsw] at h
    simpa using List.append_cancel_left h

/-- **Two values in front of the same text**: they are the same, or one mimics the other. -/
theorem eq_or_mimics {s t : String} {r r' : List Char} (hr : ∀ c ∈ r.head?, c = ' ')
    (hr' : ∀ c ∈ r'.head?, c = ' ')
    (h : formatLogValue (.str s) ++ r = formatLogValue (.str t) ++ r') :
    (s = t ∧ r = r') ∨ (Mimics s t ∧ ∃ cs, r = ' ' :: (Style.python.body cs ++ '"' :: r')) ∨
      (Mimics t s ∧ ∃ cs, r' = ' ' :: (Style.python.body cs ++ '"' :: r)) := by
  by_cases hs : ' ' ∈ s.toList
  · by_cases ht : ' ' ∈ t.toList
    · rw [formatLogValue_of_mem hs, formatLogValue_of_mem ht] at h
      exact Or.inl (Style.python.quote_append_inj h)
    · exact Or.inr (Or.inr (mimics_of_append_eq ht hs hr' h.symm))
  · by_cases ht : ' ' ∈ t.toList
    · exact Or.inr (Or.inl (mimics_of_append_eq hs ht hr h))
    · rw [formatLogValue_of_notMem hs, formatLogValue_of_notMem ht] at h
      have hst : s.toList = t.toList := by
        rw [← takeWhile_append_of_notMem hs hr, h, takeWhile_append_of_notMem ht hr']
      rw [hst] at h
      exact Or.inl ⟨String.toList_inj.mp hst, List.append_cancel_left h⟩

/-- The values of a call as text. -/
def stringsText (names : List String) (f : String → String) : List Char :=
  fieldsText names fun key => .str (f key)

theorem stringsText_cons (key : String) (names : List String) (f : String → String) :
    stringsText (key :: names) f =
      ' ' :: (key.toList ++ '=' :: (formatLogValue (.str (f key)) ++ stringsText names f)) := by
  rw [stringsText, fieldsText, List.flatMap_cons, logPart, List.cons_append, List.append_assoc,
    List.cons_append]
  rfl

theorem head?_stringsText (names : List String) (f : String → String) :
    ∀ c ∈ (stringsText names f).head?, c = ' ' := by
  cases names with
  | nil => intro c hc; cases hc
  | cons key names =>
      intro c hc
      rw [stringsText_cons] at hc
      exact (Option.some.inj hc).symm

/-- A name that a quoted string can have in it, as far as its quotation marks tell. -/
def Quotable (key : String) : Prop := '"' ∈ key.toList ∨ Style.python.Escaped key.toList

/-- What is behind a value that mimics another begins with a name that can be quoted. -/
theorem quotable_of_mimics {names : List String} {f : String → String} {cs r : List Char}
    (h : stringsText names f = ' ' :: (Style.python.body cs ++ '"' :: r)) :
    ∃ key rest, names = key :: rest ∧ Quotable key := by
  cases names with
  | nil => cases h
  | cons key rest =>
      refine ⟨key, rest, rfl, ?_⟩
      rw [stringsText_cons] at h
      by_cases hquote : '"' ∈ key.toList
      · exact Or.inl hquote
      · have hescaped := Style.python.escaped_of_append_eq (d := '=') (by decide) hquote
          (List.tail_eq_of_cons_eq h)
        exact Or.inr hescaped

/-- **One line, one set of values**, unless a value mimics the other call's in front of a name
that can be quoted. -/
theorem values_eq_of_stringsText_eq {names : List String} {f g : String → String}
    (hclear : names.IsChain fun key next =>
      Quotable next → ¬ Mimics (f key) (g key) ∧ ¬ Mimics (g key) (f key))
    (h : stringsText names f = stringsText names g) : ∀ key ∈ names, f key = g key := by
  induction names with
  | nil =>
      intro key hkey
      cases hkey
  | cons key names ih =>
      have hmimic : ∀ {f' g' : String → String} {cs : List Char},
          stringsText names f' = ' ' :: (Style.python.body cs ++ '"' :: stringsText names g') →
            ¬ Mimics (f key) (g key) ∧ ¬ Mimics (g key) (f key) := by
        intro f' g' cs htext
        obtain ⟨next, rest, rfl, hquotable⟩ := quotable_of_mimics htext
        exact (List.isChain_cons_cons.mp hclear).1 hquotable
      rw [stringsText_cons, stringsText_cons] at h
      have htail := List.tail_eq_of_cons_eq (List.append_cancel_left (List.tail_eq_of_cons_eq h))
      rcases eq_or_mimics (head?_stringsText names f) (head?_stringsText names g) htail with
        ⟨hvalue, hrest⟩ | ⟨hmimics, cs, htext⟩ | ⟨hmimics, cs, htext⟩
      · intro k hk
        rcases List.mem_cons.mp hk with rfl | hk
        · exact hvalue
        · exact ih hclear.tail hrest k hk
      · exact absurd hmimics (hmimic htext).1
      · exact absurd hmimics (hmimic htext).2

/-- **Two values that can be exchanged**: a quotation mark, and a quoted string that begins with
the next field. -/
theorem exists_stringsText_eq {as bs : List String} {key next : String}
    (hnodup : (as ++ key :: next :: bs).Nodup) (hnext : Style.python.Escaped next.toList) :
    ∃ f g : String → String, f key ≠ g key ∧
      stringsText (as ++ key :: next :: bs) f = stringsText (as ++ key :: next :: bs) g := by
  obtain ⟨cs, hcs⟩ := hnext
  obtain ⟨quoted, hquoted⟩ : ∃ t : String, t.toList = ' ' :: (cs ++ ['=']) :=
    ⟨String.ofList _, String.toList_ofList⟩
  have hmark : formatLogValue (.str "\"") = ['"'] := rfl
  have htext : formatLogValue (.str quoted) = '"' :: ' ' :: (next.toList ++ ['=', '"']) := by
    rw [formatLogValue_of_mem (by rw [hquoted]; exact List.mem_cons_self), Style.quote_eq, hquoted,
      python_body_space, Style.body_append, hcs, List.cons_append, List.append_assoc]
    rfl
  rw [List.nodup_middle, List.nodup_cons, List.nodup_middle, List.nodup_cons] at hnodup
  simp only [List.mem_append, List.mem_cons, not_or] at hnodup
  obtain ⟨⟨hkeyas, hne, hkeybs⟩, ⟨hnextas, hnextbs⟩, -⟩ := hnodup
  obtain ⟨f, hf⟩ : ∃ f : String → String, ∀ k, f k =
    if k = key then "\"" else if k = next then quoted else "" := ⟨_, fun _ => rfl⟩
  obtain ⟨g, hg⟩ : ∃ g : String → String, ∀ k, g k =
    if k = key then quoted else if k = next then "\"" else "" := ⟨_, fun _ => rfl⟩
  have hothers : ∀ l : List String, key ∉ l → next ∉ l → stringsText l f = stringsText l g := by
    intro l hkey hnext
    apply List.flatMap_congr
    intro k hk
    have hk' : k ≠ key ∧ k ≠ next := ⟨fun h => hkey (h ▸ hk), fun h => hnext (h ▸ hk)⟩
    show _ :: logPart k (.str (f k)) = _ :: logPart k (.str (g k))
    rw [hf, hg, if_neg hk'.1, if_neg hk'.2, if_neg hk'.1, if_neg hk'.2]
  have happend : ∀ h : String → String, stringsText (as ++ key :: next :: bs) h =
      stringsText as h ++ stringsText (key :: next :: bs) h := fun h => List.flatMap_append
  refine ⟨f, g, ?_, ?_⟩
  · rw [hf, hg, if_pos rfl, if_pos rfl]
    intro h
    rw [← h] at hquoted
    have hhead : '"' = ' ' := (List.cons.inj hquoted).1
    exact absurd hhead (by decide)
  · rw [happend, happend, hothers as hkeyas hnextas, stringsText_cons, stringsText_cons,
      stringsText_cons, stringsText_cons, hothers bs hkeybs hnextbs, hf, hf, hg, hg, if_pos rfl,
      if_neg (Ne.symm hne), if_pos rfl, if_pos rfl, if_neg (Ne.symm hne), if_pos rfl, hmark, htext]
    simp

/-! ## Calls -/

theorem sortedNames_perm (names : List String) : (sortedNames names).Perm names :=
  SortKey.sort_perm _ names

theorem mem_sortedNames {names : List String} {key : String} :
    key ∈ sortedNames names ↔ key ∈ names := (sortedNames_perm names).mem_iff

theorem sortedNames_sorted {names : List String} (h : names.Nodup) :
    (sortedNames names).Pairwise (· < ·) := by
  have hle : (sortedNames names).Pairwise (· ≤ ·) :=
    (SortKey.sort_sorted (.ascending id) names).imp fun h => of_decide_eq_true h
  have hne : (sortedNames names).Pairwise (· ≠ ·) := (sortedNames_perm names).nodup_iff.mpr h
  exact (hle.and hne).imp fun h => lt_of_le_of_ne h.1 h.2

/-- The order in which a call gives its fields makes no difference. -/
theorem sortedNames_congr {names names' : List String} (h : names.Nodup) (h' : names'.Nodup)
    (hmem : ∀ key, key ∈ names ↔ key ∈ names') : sortedNames names = sortedNames names' := by
  refine SortKey.sort_eq_of_perm _ ((List.perm_ext_iff_of_nodup h h').mpr hmem) ?_
  intro a _ b _ hab hba
  exact le_antisymm (of_decide_eq_true hab) (of_decide_eq_true hba)

/-- Two calls with the same field names, whose values are strings. -/
structure SameStrings (fields fields' : LogFields) : Prop where
  names : ∀ key, key ∈ fields.names ↔ key ∈ fields'.names
  strings : ∀ key ∈ fields.names, ∃ s, fields.value key = .str s
  strings' : ∀ key ∈ fields.names, ∃ s, fields'.value key = .str s

/-- A field that comes behind another. -/
def Behind (names : List String) (key : String) : Prop := ∃ k ∈ names, k < key

/-- No value mimics the value of the other call in front of a field whose name can be quoted. -/
def Clear (fields fields' : LogFields) : Prop :=
  ∀ key ∈ fields.names, (∃ next ∈ fields.names, key < next ∧ Quotable next) →
    ∀ s t, fields.value key = .str s → fields'.value key = .str t →
      ¬ Mimics s t ∧ ¬ Mimics t s

/-- The values of these fields can be told from the line. -/
def Unambiguous (event : String) (names : List String) : Prop :=
  ∀ fields fields' : LogFields, (∀ key, key ∈ fields.names ↔ key ∈ names) →
    SameStrings fields fields' → formatLogEvent event fields = formatLogEvent event fields' →
      ∀ key ∈ names, fields.value key = fields'.value key

/-- The string that a value is. -/
def LogValue.text : LogValue → String
  | .str s => s
  | _ => ""

theorem LogValue.eq_str_text {v : LogValue} (h : ∃ s, v = .str s) : v = .str v.text := by
  obtain ⟨s, rfl⟩ := h
  rfl

/-- The text behind the event, for fields that are strings. -/
theorem fieldsText_eq_stringsText {names : List String} {value : String → LogValue}
    (h : ∀ key ∈ names, ∃ s, value key = .str s) :
    fieldsText names value = stringsText names fun key => (value key).text := by
  apply List.flatMap_congr
  intro key hkey
  show _ = ' ' :: logPart key (.str (value key).text)
  rw [← LogValue.eq_str_text (h key hkey)]

/-- Two calls with one line have one text. -/
theorem SameStrings.stringsText_eq {event : String} {fields fields' : LogFields}
    (h : SameStrings fields fields') (hevent : strip event ≠ "")
    (hline : formatLogEvent event fields = formatLogEvent event fields') :
    stringsText (sortedNames fields.names) (fun key => (fields.value key).text) =
      stringsText (sortedNames fields.names) fun key => (fields'.value key).text := by
  have hsorted := sortedNames_congr fields.nodup fields'.nodup h.names
  rw [formatLogEvent_eq hevent, formatLogEvent_eq hevent, ← hsorted, Except.ok.injEq,
    String.ofList_inj] at hline
  rw [← fieldsText_eq_stringsText fun key hkey => h.strings key (mem_sortedNames.mp hkey),
    ← fieldsText_eq_stringsText fun key hkey => h.strings' key (mem_sortedNames.mp hkey)]
  exact List.append_cancel_left hline

/-- **Equal lines, equal values**, unless a value mimics another. -/
theorem value_eq_of_clear {event : String} {fields fields' : LogFields}
    (h : SameStrings fields fields') (hevent : strip event ≠ "") (hclear : Clear fields fields')
    (hline : formatLogEvent event fields = formatLogEvent event fields') :
    ∀ key ∈ fields.names, fields.value key = fields'.value key := by
  have hchain : (sortedNames fields.names).IsChain fun key next => Quotable next →
      ¬ Mimics (fields.value key).text (fields'.value key).text ∧
        ¬ Mimics (fields'.value key).text (fields.value key).text := by
    apply List.Pairwise.isChain
    apply (sortedNames_sorted fields.nodup).imp_of_mem
    intro key next hkey hnext hlt hquotable
    rw [mem_sortedNames] at hkey hnext
    exact hclear key hkey ⟨next, hnext, hlt, hquotable⟩ _ _
      (LogValue.eq_str_text (h.strings key hkey)) (LogValue.eq_str_text (h.strings' key hkey))
  intro key hkey
  have htext := values_eq_of_stringsText_eq hchain (h.stringsText_eq hevent hline) key
    (mem_sortedNames.mpr hkey)
  rw [LogValue.eq_str_text (h.strings key hkey), LogValue.eq_str_text (h.strings' key hkey), htext]

/-- The same fields with these strings. -/
def LogFields.withStrings (fields : LogFields) (f : String → String) : LogFields :=
  { fields with value := fun key => .str (f key) }

theorem sameStrings_withStrings (fields : LogFields) (f g : String → String) :
    SameStrings (fields.withStrings f) (fields.withStrings g) where
  names _ := Iff.rfl
  strings key _ := ⟨f key, rfl⟩
  strings' key _ := ⟨g key, rfl⟩

/-- Two calls with the same line, if a field behind another has a name that can be quoted. -/
theorem exists_sameStrings {event : String} (hevent : strip event ≠ "") {fields : LogFields}
    {next : String} (hnext : next ∈ fields.names) (hbehind : Behind fields.names next)
    (hescaped : Style.python.Escaped next.toList) :
    ∃ f g : String → String, (∃ key ∈ fields.names, f key ≠ g key) ∧
      formatLogEvent event (fields.withStrings f) =
        formatLogEvent event (fields.withStrings g) := by
  have hsorted := sortedNames_sorted fields.nodup
  obtain ⟨as, bs, hsplit⟩ := List.append_of_mem (mem_sortedNames.mpr hnext)
  obtain ⟨k, hk, hlt⟩ := hbehind
  have hk' : k ∈ as := by
    have hmem := mem_sortedNames.mpr hk
    rw [hsplit] at hmem hsorted
    rcases List.mem_append.mp hmem with hmem | hmem
    · exact hmem
    · rcases List.mem_cons.mp hmem with rfl | hmem
      · exact absurd hlt (lt_irrefl _)
      · have hgt := List.rel_of_pairwise_cons (List.pairwise_append.mp hsorted).2.1 hmem
        exact absurd hlt hgt.not_gt
  obtain ⟨as', key, rfl⟩ := (List.eq_nil_or_concat as).resolve_left (List.ne_nil_of_mem hk')
  rw [List.concat_eq_append, List.append_assoc, List.singleton_append] at hsplit
  have hnodup : (as' ++ key :: next :: bs).Nodup := by
    rw [← hsplit]
    exact (sortedNames_perm _).nodup_iff.mpr fields.nodup
  obtain ⟨f, g, hne, htext⟩ := exists_stringsText_eq hnodup hescaped
  refine ⟨f, g, ⟨key, ?_, hne⟩, ?_⟩
  · apply mem_sortedNames.mp
    rw [hsplit]
    simp
  · rw [← hsplit] at htext
    rw [formatLogEvent_eq hevent, formatLogEvent_eq hevent]
    exact congrArg (fun t => Except.ok (String.ofList (_ ++ t))) htext

/-- **When a log line is a single line, and says what its values are**. -/
theorem logLine_iff {event : String} (hevent : strip event ≠ "") :
    (∀ fields : LogFields, ∃ line, formatLogEvent event fields = .ok line ∧
      (¬ HasLineBreak line.toList ↔ ¬ BreaksLine event ∧ ∀ key ∈ fields.names,
        ¬ HasLineBreak key.toList ∧ ∀ s, fields.value key = .str s → ¬ BreaksLine s)) ∧
    (∀ fields fields' : LogFields, SameStrings fields fields' → Clear fields fields' →
      formatLogEvent event fields = formatLogEvent event fields' →
        ∀ key ∈ fields.names, fields.value key = fields'.value key) ∧
    ∀ fields : LogFields,
      (∀ key ∈ fields.names, Behind fields.names key → '"' ∉ key.toList) →
        (Unambiguous event fields.names ↔
          ∀ key ∈ fields.names, Behind fields.names key →
            ¬ Style.python.Escaped key.toList) := by
  refine ⟨?_, fun fields fields' h hclear => value_eq_of_clear h hevent hclear, ?_⟩
  · intro fields
    refine ⟨_, formatLogEvent_eq hevent fields, ?_⟩
    have hname : ¬ HasLineBreak "event".toList := not_hasLineBreak (printable_of_all (by decide))
    have hevent' : (∃ s, LogValue.str event = .str s ∧ BreaksLine s) ↔ BreaksLine event := by
      simp only [LogValue.str.injEq, exists_eq_left']
    rw [String.toList_ofList, hasLineBreak_append, hasLineBreak_logPart, hasLineBreak_fieldsText,
      hevent', or_iff_right hname, not_or]
    simp only [not_exists, not_and, not_or, mem_sortedNames]
  · intro fields hquote
    constructor
    · intro hunambiguous next hnext hbehind hescaped
      obtain ⟨f, g, ⟨key, hkey, hne⟩, hline⟩ := exists_sameStrings hevent hnext hbehind hescaped
      have hsame := hunambiguous (fields.withStrings f) (fields.withStrings g) (fun _ => Iff.rfl)
        (sameStrings_withStrings fields f g) hline key hkey
      exact hne (LogValue.str.inj hsame)
    · intro hplain fields₁ fields₂ hnames h hline key hkey
      apply value_eq_of_clear h hevent _ hline key ((hnames key).mpr hkey)
      rintro k hk ⟨next, hnext, hlt, hquotable⟩
      have hbehind : Behind fields.names next := ⟨k, (hnames k).mp hk, hlt⟩
      have hmem := (hnames next).mp hnext
      rcases hquotable with hmark | hescaped
      · exact absurd hmark (hquote next hmem hbehind)
      · exact absurd hescaped (hplain next hmem hbehind)

/-- Two fields, the second of which has a name that no JSON string can have in it. -/
def accentedFields (value : String → LogValue) : LogFields where
  names := ["job_id", "ré"]
  nodup := by decide
  event_notMem := by decide
  value := value

theorem logLine_iff_accented :
    (∃ line, formatLogEvent "tick" (accentedFields fun _ => .none) = .ok line ∧
      (¬ HasLineBreak line.toList ↔ ¬ BreaksLine "tick" ∧
        ∀ key ∈ ["job_id", "ré"], ¬ HasLineBreak key.toList ∧
          ∀ s, LogValue.none = .str s → ¬ BreaksLine s)) ∧
    (Unambiguous "tick" ["job_id", "ré"] ↔ ∀ key ∈ ["job_id", "ré"],
      Behind ["job_id", "ré"] key → ¬ Style.python.Escaped key.toList) := by
  have hevent : strip "tick" ≠ "" := by decide +kernel
  have hquote : ∀ key ∈ ["job_id", "ré"], '"' ∉ key.toList := by decide
  exact ⟨(logLine_iff hevent).1 (accentedFields fun _ => .none),
    (logLine_iff hevent).2.2 (accentedFields fun _ => .none) fun key hkey _ => hquote key hkey⟩

/-- `msg=…`. -/
def msgField (msg : String) : LogFields where
  names := ["msg"]
  nodup := by decide
  event_notMem := by decide
  value _ := .str msg

/-- `b=…, a=…`. -/
def abFields (a b : String) : LogFields where
  names := ["b", "a"]
  nodup := by decide
  event_notMem := by decide
  value key := .str (if key = "a" then a else b)

/-- A record forged by a line break, and a value that passes for another field. -/
theorem forged_lines :
    formatLogEvent "tick" (msgField "ok\nevent=forged") = .ok "event=tick msg=ok\nevent=forged" ∧
    HasLineBreak "event=tick msg=ok\nevent=forged".toList ∧
    formatLogEvent "tick" (abFields "\"" " b=") = .ok "event=tick a=\" b=\" b=\"" ∧
    formatLogEvent "tick" (abFields " b=" "\"") = .ok "event=tick a=\" b=\" b=\"" := by
  refine ⟨?_, ?_, ?_, ?_⟩
  · rfl
  · exact ⟨'\n', by decide, by decide⟩
  · rfl
  · rfl

end KernelQ.ControlPlane
