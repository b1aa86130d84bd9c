import KernelQ.Foundation.JsonStyle
import KernelQ.Foundation.Text

/-!
# Strings of bytes, as JSON

A Go string holds any bytes. `encoding/json` writes a byte that starts no well-formed
sequence as the escape of U+FFFD, so a reader gets the `runes` of the bytes
(`parse_stringStruct`), and these are the bytes again exactly where they are UTF-8
(`toUTF8_runes_iff`).
-/

namespace KernelQ.Foundation

/-- The characters from byte `i` on, at most `n`; a byte that starts none is `none`. -/
def scalarsFrom (b : ByteArray) : ℕ → ℕ → List (Option Char)
  | 0, _ => []
  | n + 1, i =>
      if i < b.size then
        match b.utf8DecodeChar? i with
        | some c => some c :: scalarsFrom b n (i + c.utf8Size)
        | none => none :: scalarsFrom b n (i + 1)
      else []

def scalars (b : ByteArray) : List (Option Char) := scalarsFrom b b.size 0

theorem scalarsFrom_getD (b : ByteArray) (n i : ℕ) :
    (scalarsFrom b n i).map (·.getD replacementChar) = runesFrom b n i := by
  induction n generalizing i with
  | zero => rfl
  | succ n ih =>
      rw [scalarsFrom, runesFrom]
      split
      · cases b.utf8DecodeChar? i with
        | none => rw [List.map_cons, ih]; rfl
        | some c => rw [List.map_cons, ih]; rfl
      · rfl

theorem scalars_getD (b : ByteArray) : (scalars b).map (·.getD replacementChar) = runes b :=
  scalarsFrom_getD b b.size 0

/-- **The characters of the bytes are the bytes** exactly if they are UTF-8. -/
theorem toUTF8_runes_iff (b : ByteArray) :
    (String.ofList (runes b)).toUTF8 = b ↔ b.IsValidUTF8 := by
  constructor
  · intro h
    rw [← h]
    exact (String.ofList (runes b)).isValidUTF8
  · rintro ⟨cs, rfl⟩
    have hcs : cs.utf8Encode = (String.ofList cs).toUTF8 := by
      have h := @String.utf8Encode_toList (String.ofList cs)
      rwa [String.toList_ofList] at h
    rw [hcs, runes_toUTF8, String.ofList_toList]

namespace Style

variable (S : Style)

/-- How a character is written, and a byte that starts none. -/
def written : Option Char → CharForm × Char
  | some c => (S.form c, c)
  | none => (.hex, replacementChar)

def quoteBytes (b : ByteArray) : List Char :=
  '"' :: ((scalars b).flatMap fun c => (S.written c).1.encode (S.written c).2) ++ ['"']

theorem fits_written : ∀ c, (S.written c).1.Fits (S.written c).2
  | some c => S.form_fits c
  | none => by
      show replacementChar.toNat < 0x10000
      decide

theorem written_snd : ∀ c, (S.written c).2 = c.getD replacementChar
  | some _ => rfl
  | none => rfl

theorem lex_quoteBytes (lone : Option Char) (b : ByteArray) (rest : List Char) :
    lex lone .between (S.quoteBytes b ++ rest) =
      (lex lone .between rest).map (.str (String.ofList (runes b)) :: ·) := by
  have hcs : ∀ p ∈ (scalars b).map S.written, p.1.Fits p.2 := by
    intro p hp
    obtain ⟨c, -, rfl⟩ := List.mem_map.mp hp
    exact S.fits_written c
  have hsnd : ((scalars b).map S.written).map Prod.snd = runes b := by
    rw [List.map_map, ← scalars_getD]
    exact List.map_congr_left fun c _ => S.written_snd c
  have h := lex_string lone hcs rest
  rw [hsnd, List.flatMap_map] at h
  rw [quoteBytes, List.append_assoc]
  exact h

/-! ## Structs of strings -/

/-- The rest of the object, behind its first member. -/
def stringMembers : List (String × ByteArray) → List Char
  | [] => S.text .rbrace
  | (name, b) :: members =>
      S.text .comma ++ (S.quote name ++ (S.text .colon ++ (S.quoteBytes b ++
        stringMembers members)))

/-- A struct whose fields are strings. -/
def stringStruct : List (String × ByteArray) → List Char
  | [] => S.text .lbrace ++ S.text .rbrace
  | (name, b) :: members =>
      S.text .lbrace ++ (S.quote name ++ (S.text .colon ++ (S.quoteBytes b ++
        S.stringMembers members)))

end Style

/-- What a reader makes of a member. -/
def readMember (m : String × ByteArray) : String × Json :=
  (m.1, .str (String.ofList (runes m.2)))

theorem lex_stringMembers (lone : Option Char) (S : Style) (members : List (String × ByteArray)) :
    lex lone .between (S.stringMembers members) =
      some (Json.fieldsTokens (members.map readMember)) := by
  induction members with
  | nil =>
      have h := lex_token lone S (t := .rbrace) rfl []
      rw [List.append_nil] at h
      rw [Style.stringMembers, h]
      rfl
  | cons m members ih =>
      rw [Style.stringMembers, lex_token lone S rfl, lex_quote, lex_token lone S rfl,
        S.lex_quoteBytes, ih]
      rfl

/-- **Reading undoes writing**, up to bytes that are not UTF-8. -/
theorem parse_stringStruct (lone : Option Char) (S : Style)
    (members : List (String × ByteArray)) :
    Json.parse lone (S.stringStruct members) = some (.obj (members.map readMember)) := by
  have hlex : lex lone .between (S.stringStruct members) =
      some (Json.obj (members.map readMember)).tokens := by
    cases members with
    | nil =>
        have h := lex_token lone S (t := .rbrace) rfl []
        rw [List.append_nil] at h
        rw [Style.stringStruct, lex_token lone S rfl, h]
        rfl
    | cons m members =>
        rw [Style.stringStruct, lex_token lone S rfl, lex_quote, lex_token lone S rfl,
          S.lex_quoteBytes, lex_stringMembers]
        rfl
  rw [Json.parse, hlex]
  exact Json.ofTokens_tokens _

end KernelQ.Foundation
