import KernelQ.Worker.DispatchEvent

/-!
# Go strings that may be no text

The value of an environment variable is any sequence of bytes. `strings` and `strconv` read it
rune by rune, and take a byte that belongs to no well-formed rune for one of its own.
-/

namespace KernelQ.Worker

open KernelQ.Foundation

inductive Rune
  | char (c : Char)
  | invalid (byte : UInt8)
  deriving DecidableEq

abbrev GoText := List Rune

/-- The tables of `unicode`, beyond ASCII: the lower case of a character, and the one that
stands for all characters it folds to. -/
structure UnicodeTables where
  lower : Char → Char
  fold : Char → Char

namespace Rune

def isSpace : Rune → Bool
  | char c => Worker.isSpace c
  | invalid _ => false

/-- The character that decoding yields. -/
def toChar : Rune → Char
  | char c => c
  | invalid _ => replacementChar

/-- The table is asked beyond ASCII only. -/
def lookup (table : Char → Char) (c : Char) : Char :=
  if c.toNat < 0x80 then c.toLower else table c

end Rune

namespace GoText

def ofString (s : String) : GoText := s.toList.map .char

/-- `strings.TrimSpace`. -/
def trimSpace (s : GoText) : GoText := (s.dropWhile Rune.isSpace).rdropWhile Rune.isSpace

/-- `strings.ToLower`. -/
def toLower (U : UnicodeTables) (s : GoText) : GoText :=
  s.map fun r => .char (Rune.lookup U.lower r.toChar)

/-- `strings.EqualFold`. -/
def equalFold (U : UnicodeTables) (s t : GoText) : Bool :=
  decide ((s.map fun r => Rune.lookup U.fold r.toChar) =
    t.map fun r => Rune.lookup U.fold r.toChar)

def digit? : Rune → Option ℕ
  | .char c => if c.isDigit then some (c.toNat - '0'.toNat) else none
  | .invalid _ => none

/-- The digits of a number, at least one. -/
def digits? (s : GoText) : Option ℕ :=
  if s = [] then none else s.foldlM (fun n r => (digit? r).map fun d => 10 * n + d) 0

/-- `strconv.Atoi`: a sign is allowed, and the number is an `int`. -/
def atoi (s : GoText) : Option ℤ :=
  let number : Option ℤ :=
    match s with
    | .char '-' :: s => (digits? s).map fun n => -n
    | .char '+' :: s => (digits? s).map fun n => n
    | s => (digits? s).map fun n => n
  number.filter fun n => decide (-2 ^ 63 ≤ n ∧ n < 2 ^ 63)

/-- Nothing is left to trim at the beginning. -/
theorem dropWhile_trimSpace (s : GoText) : (trimSpace s).dropWhile Rune.isSpace = trimSpace s := by
  obtain ⟨rest, hrest⟩ := List.rdropWhile_prefix Rune.isSpace (l := s.dropWhile Rune.isSpace)
  cases htrim : trimSpace s with
  | nil => rfl
  | cons r t =>
      have hhead := List.head?_dropWhile_not Rune.isSpace s
      rw [← hrest] at hhead
      rw [trimSpace] at htrim
      rw [htrim, List.cons_append, List.head?_cons] at hhead
      exact List.dropWhile_cons_of_neg (by simpa using hhead)

@[simp] theorem trimSpace_trimSpace (s : GoText) : trimSpace (trimSpace s) = trimSpace s := by
  conv_lhs => rw [trimSpace, dropWhile_trimSpace, trimSpace]
  exact List.rdropWhile_idempotent Rune.isSpace _

end GoText

end KernelQ.Worker
