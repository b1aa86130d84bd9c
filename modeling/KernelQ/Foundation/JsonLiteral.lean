import Mathlib.Data.Int.Notation
import Mathlib.Tactic.IntervalCases

/-!
# JSON numbers and strings (RFC 8259 §6, §7)

A number is scanned one character at a time; a string body is decoded in two
passes, escapes to UTF-16 code units and then surrogate pairs to characters.
What an unpaired surrogate decodes to is not settled by the RFC, so it is the
parameter `lone`; `none` rejects it. An encoder chooses a `CharForm` for each
character, and decoding undoes every such choice (`decodeString_encode`).
-/

namespace KernelQ.Foundation

/-! ## Numbers -/

/-- Where a scanner is inside a number. -/
inductive NumState
  | start | minus | zero | digits | point | fraction | exp | expSign | exponent
  deriving DecidableEq

namespace NumState

def next : NumState → Char → Option NumState
  | start, c =>
      if c = '-' then some minus else if c = '0' then some zero
      else if c.isDigit then some digits else none
  | minus, c => if c = '0' then some zero else if c.isDigit then some digits else none
  | zero, c => if c = '.' then some point else if c = 'e' ∨ c = 'E' then some exp else none
  | digits, c =>
      if c.isDigit then some digits else if c = '.' then some point
      else if c = 'e' ∨ c = 'E' then some exp else none
  | point, c => if c.isDigit then some fraction else none
  | fraction, c =>
      if c.isDigit then some fraction else if c = 'e' ∨ c = 'E' then some exp else none
  | exp, c =>
      if c = '+' ∨ c = '-' then some expSign else if c.isDigit then some exponent else none
  | expSign, c => if c.isDigit then some exponent else none
  | exponent, c => if c.isDigit then some exponent else none

def scan : NumState → List Char → Option NumState
  | s, [] => some s
  | s, c :: cs => (s.next c).bind fun t => scan t cs

theorem scan_append (s : NumState) (w v : List Char) :
    s.scan (w ++ v) = (s.scan w).bind fun t => t.scan v := by
  induction w generalizing s with
  | nil => rfl
  | cons c w ih => cases h : s.next c <;> simp [scan, h, ih]

/-- What holds of every character a scanner takes. -/
theorem forall_of_scan {P : Char → Prop} (hnext : ∀ (s t : NumState) c, s.next c = some t → P c)
    {w : List Char} : ∀ {s t : NumState}, s.scan w = some t → ∀ c ∈ w, P c := by
  induction w with
  | nil => intro s t _ c hc; cases hc
  | cons d w ih =>
      intro s t h c hc
      simp only [scan, Option.bind_eq_some_iff] at h
      obtain ⟨u, hu, h⟩ := h
      rcases List.mem_cons.mp hc with rfl | hc
      · exact hnext s u c hu
      · exact ih h c hc

end NumState

def isIntLiteral (w : List Char) : Bool :=
  NumState.scan .start w = some .zero ∨ NumState.scan .start w = some .digits

def isDecimalLiteral (w : List Char) : Bool :=
  NumState.scan .start w = some .fraction ∨ NumState.scan .start w = some .exponent

/-- A number with a fraction or an exponent, kept as it is written. -/
structure DecimalLiteral where
  text : List Char
  decimal : isDecimalLiteral text = true

def intValue : List Char → ℤ
  | '-' :: w => -(Nat.ofDigitChars 10 w 0 : ℤ)
  | w => (Nat.ofDigitChars 10 w 0 : ℤ)

def intText : ℤ → List Char
  | .ofNat n => Nat.toDigits 10 n
  | .negSucc n => '-' :: Nat.toDigits 10 (n + 1)

theorem digits_next_digitChar {d : ℕ} (hd : d < 10) :
    NumState.digits.next d.digitChar = some .digits := by
  interval_cases d <;> decide

theorem scan_digitChar {s : NumState} (hs : s = .start ∨ s = .minus) {d : ℕ} (hd : d < 10) :
    s.scan [d.digitChar] = some (if d = 0 then .zero else .digits) := by
  rcases hs with rfl | rfl <;> interval_cases d <;> decide

/-- Decimal digits are a number literal: no leading zero. -/
theorem scan_toDigits {s : NumState} (hs : s = .start ∨ s = .minus) (n : ℕ) :
    s.scan (Nat.toDigits 10 n) = some (if n = 0 then .zero else .digits) := by
  induction n using Nat.strongRecOn with
  | ind n ih =>
      by_cases hn : n < 10
      · rw [Nat.toDigits_of_lt_base hn]
        exact scan_digitChar hs hn
      · rw [Nat.toDigits_of_base_le (by omega) (by omega), NumState.scan_append,
          ih (n / 10) (by omega), if_neg (by omega), if_neg (by omega)]
        simp [NumState.scan, digits_next_digitChar (Nat.mod_lt n (by omega : 0 < 10))]

theorem isIntLiteral_intText (i : ℤ) : isIntLiteral (intText i) = true := by
  cases i with
  | ofNat n =>
      have h := scan_toDigits (Or.inl rfl) n
      simp only [isIntLiteral, intText, h]
      by_cases hn : n = 0 <;> simp [hn]
  | negSucc n =>
      have h := scan_toDigits (Or.inr rfl) (n + 1)
      have hm : NumState.start.next '-' = some .minus := rfl
      simp [isIntLiteral, intText, NumState.scan, hm, h]

theorem toDigits_ne_minus {n : ℕ} {w : List Char} : Nat.toDigits 10 n ≠ '-' :: w := by
  intro h
  have hd := Nat.isDigit_of_mem_toDigits (b := 10) (n := n) (c := '-') (by omega) (by omega)
    (by rw [h]; exact List.mem_cons_self)
  exact absurd hd (by decide)

theorem intValue_intText (i : ℤ) : intValue (intText i) = i := by
  cases i with
  | ofNat n =>
      simp only [intText]
      unfold intValue
      split
      · rename_i w hw
        exact absurd hw toDigits_ne_minus
      · rw [Nat.ofDigitChars_ten_toDigits]
        rfl
  | negSucc n =>
      simp only [intText, intValue, Nat.ofDigitChars_ten_toDigits]
      omega

/-! ## Strings -/

/-- What one step of a string body stands for: a character, or a UTF-16 code unit given
by `\u`. -/
inductive StrUnit
  | char (c : Char)
  | code (u : ℕ)

def hexDigit? (c : Char) : Option ℕ :=
  if c.isDigit then some (c.toNat - 48)
  else if 'a' ≤ c ∧ c ≤ 'f' then some (c.toNat - 87)
  else if 'A' ≤ c ∧ c ≤ 'F' then some (c.toNat - 55)
  else none

def hex4? (a b c d : Char) : Option ℕ := do
  let a ← hexDigit? a
  let b ← hexDigit? b
  let c ← hexDigit? c
  let d ← hexDigit? d
  return ((a * 16 + b) * 16 + c) * 16 + d

def shortEscape? : Char → Option Char
  | '"' => some '"'
  | '\\' => some '\\'
  | '/' => some '/'
  | 'b' => some '\x08'
  | 'f' => some '\x0c'
  | 'n' => some '\n'
  | 'r' => some '\r'
  | 't' => some '\t'
  | _ => none

/-- A string body, its escapes resolved; `none` on an invalid escape or a bare control
character. -/
def units : List Char → Option (List StrUnit)
  | [] => some []
  | '\\' :: 'u' :: a :: b :: c :: d :: cs =>
      (hex4? a b c d).bind fun u => (units cs).map (.code u :: ·)
  | '\\' :: e :: cs => (shortEscape? e).bind fun c => (units cs).map (.char c :: ·)
  | c :: cs => if c = '\\' ∨ c.toNat < 0x20 then none else (units cs).map (.char c :: ·)

def isHighSurrogate (u : ℕ) : Bool := decide (0xD800 ≤ u ∧ u < 0xDC00)
def isLowSurrogate (u : ℕ) : Bool := decide (0xDC00 ≤ u ∧ u < 0xE000)

def codeChar (lone : Option Char) (u : ℕ) : Option Char :=
  if isHighSurrogate u || isLowSurrogate u then lone else some (Char.ofNat u)

/-- Surrogate pairs to characters. -/
def assemble (lone : Option Char) : List StrUnit → Option (List Char)
  | [] => some []
  | .char c :: us => (assemble lone us).map (c :: ·)
  | .code hi :: .code lo :: us =>
      if isHighSurrogate hi && isLowSurrogate lo then
        (assemble lone us).map (Char.ofNat (0x10000 + (hi - 0xD800) * 0x400 + (lo - 0xDC00)) :: ·)
      else (codeChar lone hi).bind fun c => (assemble lone (.code lo :: us)).map (c :: ·)
  | .code u :: us => (codeChar lone u).bind fun c => (assemble lone us).map (c :: ·)

def decodeString (lone : Option Char) (body : List Char) : Option String :=
  ((units body).bind (assemble lone)).map String.ofList

/-- How an encoder may write a character. -/
inductive CharForm
  | raw | short | hex | pair

def hex4 (u : ℕ) : List Char :=
  [(u / 4096).digitChar, (u / 256 % 16).digitChar, (u / 16 % 16).digitChar, (u % 16).digitChar]

def shortLetter : Char → Char
  | '\x08' => 'b'
  | '\x0c' => 'f'
  | '\n' => 'n'
  | '\r' => 'r'
  | '\t' => 't'
  | c => c

def highSurrogate (c : Char) : ℕ := 0xD800 + (c.toNat - 0x10000) / 0x400
def lowSurrogate (c : Char) : ℕ := 0xDC00 + (c.toNat - 0x10000) % 0x400

namespace CharForm

def encode : CharForm → Char → List Char
  | raw, c => [c]
  | short, c => ['\\', shortLetter c]
  | hex, c => '\\' :: 'u' :: hex4 c.toNat
  | pair, c => '\\' :: 'u' :: hex4 (highSurrogate c) ++ '\\' :: 'u' :: hex4 (lowSurrogate c)

/-- The form is one a decoder reads back as the character. -/
def Fits : CharForm → Char → Prop
  | raw, c => c ≠ '"' ∧ c ≠ '\\' ∧ 0x20 ≤ c.toNat
  | short, c => shortEscape? (shortLetter c) = some c
  | hex, c => c.toNat < 0x10000
  | pair, c => 0x10000 ≤ c.toNat

def unitsOf : CharForm → Char → List StrUnit
  | raw, c => [.char c]
  | short, c => [.char c]
  | hex, c => [.code c.toNat]
  | pair, c => [.code (highSurrogate c), .code (lowSurrogate c)]

end CharForm

theorem hexDigit?_digitChar {d : ℕ} (hd : d < 16) : hexDigit? d.digitChar = some d := by
  interval_cases d <;> decide

theorem units_hex4 {u : ℕ} (hu : u < 0x10000) (cs : List Char) :
    units ('\\' :: 'u' :: (hex4 u ++ cs)) = (units cs).map (.code u :: ·) := by
  have hvalue : ((u / 4096 * 16 + u / 256 % 16) * 16 + u / 16 % 16) * 16 + u % 16 = u := by omega
  simp only [hex4, List.cons_append, List.nil_append, units, hex4?,
    hexDigit?_digitChar (show u / 4096 < 16 by omega),
    hexDigit?_digitChar (Nat.mod_lt _ (by omega : 0 < 16)), bind, Option.bind, pure]
  rw [hvalue]

theorem units_raw {c : Char} (hc : CharForm.raw.Fits c) (cs : List Char) :
    units (c :: cs) = (units cs).map (.char c :: ·) := by
  obtain ⟨-, hslash, hctl⟩ := hc
  rw [units]
  · rw [if_neg (by simpa [hslash] using hctl)]
  · rintro a b d e rest rfl -
    exact hslash rfl
  · rintro e rest rfl -
    exact hslash rfl

theorem shortLetter_ne_u {c : Char} (hc : CharForm.short.Fits c) : shortLetter c ≠ 'u' := by
  intro h
  have hnone : shortEscape? 'u' = none := by decide
  rw [CharForm.Fits, h, hnone] at hc
  cases hc

theorem char_toNat_lt (c : Char) : c.toNat < 0x110000 := by
  rcases c.valid with h | ⟨-, h⟩
  · exact lt_trans h (by decide)
  · exact h

theorem units_encode {f : CharForm} {c : Char} (hf : f.Fits c) (cs : List Char) :
    units (f.encode c ++ cs) = (units cs).map (f.unitsOf c ++ ·) := by
  cases f with
  | raw => exact units_raw hf cs
  | short =>
      have hu := shortLetter_ne_u hf
      simp only [CharForm.encode, List.cons_append, List.nil_append]
      rw [units]
      · rw [hf]
        rfl
      · rintro a b d e rest h
        exact absurd h hu
  | hex => exact units_hex4 hf cs
  | pair =>
      have hc := char_toNat_lt c
      simp only [CharForm.encode, List.cons_append, List.append_assoc]
      rw [units_hex4 (by unfold highSurrogate; omega), units_hex4 (by unfold lowSurrogate; omega)]
      simp [CharForm.unitsOf, Function.comp_def]

theorem not_surrogate (c : Char) :
    isHighSurrogate c.toNat = false ∧ isLowSurrogate c.toNat = false := by
  have hc : c.toNat < 0xD800 ∨ 0xDFFF < c.toNat ∧ c.toNat < 0x110000 := c.valid
  exact ⟨decide_eq_false (by omega), decide_eq_false (by omega)⟩

theorem assemble_unitsOf {f : CharForm} {c : Char} (hf : f.Fits c) (lone : Option Char)
    (us : List StrUnit) : assemble lone (f.unitsOf c ++ us) = (assemble lone us).map (c :: ·) := by
  cases f with
  | raw => rfl
  | short => rfl
  | hex =>
      have hchar : codeChar lone c.toNat = some c := by
        simp [codeChar, not_surrogate c, Char.ofNat_toNat]
      cases us with
      | nil => simp [CharForm.unitsOf, assemble, hchar]
      | cons u us => cases u <;> simp [CharForm.unitsOf, assemble, hchar, not_surrogate c]
  | pair =>
      have hc := char_toNat_lt c
      have hge : 0x10000 ≤ c.toNat := hf
      have hhigh : isHighSurrogate (highSurrogate c) = true :=
        decide_eq_true (by unfold highSurrogate; omega)
      have hlow : isLowSurrogate (lowSurrogate c) = true :=
        decide_eq_true (by unfold lowSurrogate; omega)
      have hvalue : 0x10000 + (highSurrogate c - 0xD800) * 0x400 + (lowSurrogate c - 0xDC00)
          = c.toNat := by
        unfold highSurrogate lowSurrogate
        omega
      simp only [CharForm.unitsOf, List.cons_append, List.nil_append, assemble, hhigh, hlow,
        Bool.and_self, if_true, hvalue, Char.ofNat_toNat]

/-- **Decoding undoes encoding**, whatever form each character is given. -/
theorem decodeString_encode {cs : List (CharForm × Char)} (hcs : ∀ p ∈ cs, p.1.Fits p.2)
    (lone : Option Char) :
    decodeString lone (cs.flatMap fun p => p.1.encode p.2) =
      some (String.ofList (cs.map Prod.snd)) := by
  have hunits : units (cs.flatMap fun p => p.1.encode p.2)
      = some (cs.flatMap fun p => p.1.unitsOf p.2) := by
    induction cs with
    | nil => rfl
    | cons p cs ih =>
        rw [List.flatMap_cons, units_encode (hcs p List.mem_cons_self),
          ih fun q hq => hcs q (List.mem_cons_of_mem _ hq)]
        rfl
  have hassemble : assemble lone (cs.flatMap fun p => p.1.unitsOf p.2)
      = some (cs.map Prod.snd) := by
    clear hunits
    induction cs with
    | nil => rfl
    | cons p cs ih =>
        rw [List.flatMap_cons, assemble_unitsOf (hcs p List.mem_cons_self),
          ih fun q hq => hcs q (List.mem_cons_of_mem _ hq)]
        rfl
  simp [decodeString, hunits, hassemble]

end KernelQ.Foundation
