import KernelQ.Foundation.JsonLiteral
import Mathlib.Data.Bool.AllAny

/-!
# JSON tokens

The scanner is a machine that reads one character at a time: between tokens, in
a bare word (a literal name or a number), in a string, or just behind a
backslash. A bare word ends at the first delimiter and is classified as a
whole. A `Style` is an encoder's choice of white space and of the form of each
character; scanning the text of tokens gives the tokens back in every style
(`lex_text`).
-/

namespace KernelQ.Foundation

inductive Token
  | lbrace | rbrace | lbracket | rbracket | colon | comma
  | null
  | bool (b : Bool)
  | int (i : ℤ)
  | dec (d : DecimalLiteral)
  | str (s : String)

/-! ## The scanner -/

def isSpace (c : Char) : Bool := decide (c ∈ [' ', '\t', '\n', '\r'])

def punct? : Char → Option Token
  | '{' => some .lbrace
  | '}' => some .rbrace
  | '[' => some .lbracket
  | ']' => some .rbracket
  | ':' => some .colon
  | ',' => some .comma
  | _ => none

def delimiters : List Char := [' ', '\t', '\n', '\r', '{', '}', '[', ']', ':', ',', '"']

def wordToken (w : List Char) : Option Token :=
  if w = ['n', 'u', 'l', 'l'] then some .null
  else if w = ['t', 'r', 'u', 'e'] then some (.bool true)
  else if w = ['f', 'a', 'l', 's', 'e'] then some (.bool false)
  else if isIntLiteral w then some (.int (intValue w))
  else if h : isDecimalLiteral w = true then some (.dec ⟨w, h⟩)
  else none

/-- Where the scanner is; the characters read so far come latest first. -/
inductive LexState
  | between
  | word (acc : List Char)
  | quoted (acc : List Char)
  | escaped (acc : List Char)

namespace LexState

/-- The first character of a token, or white space. -/
def begin (c : Char) : List Token × LexState :=
  if isSpace c then ([], between)
  else if c = '"' then ([], quoted [])
  else
    match punct? c with
    | some t => ([t], between)
    | none => ([], word [c])

def next (lone : Option Char) : LexState → Char → Option (List Token × LexState)
  | between, c => some (begin c)
  | word acc, c =>
      if c ∈ delimiters then
        (wordToken acc.reverse).map fun t => (t :: (begin c).1, (begin c).2)
      else some ([], word (c :: acc))
  | quoted acc, c =>
      if c = '"' then (decodeString lone acc.reverse).map fun s => ([.str s], between)
      else if c = '\\' then some ([], escaped (c :: acc))
      else some ([], quoted (c :: acc))
  | escaped acc, c => some ([], quoted (c :: acc))

def finish : LexState → Option (List Token)
  | between => some []
  | word acc => (wordToken acc.reverse).map fun t => [t]
  | quoted _ => none
  | escaped _ => none

end LexState

def lex (lone : Option Char) : LexState → List Char → Option (List Token)
  | s, [] => s.finish
  | s, c :: cs => (s.next lone c).bind fun r => (lex lone r.2 cs).map (r.1 ++ ·)

/-! ## Text -/

/-- An encoder's choices. -/
structure Style where
  comma : List Char
  colon : List Char
  form : Char → CharForm
  comma_space : ∀ c ∈ comma, isSpace c = true
  colon_space : ∀ c ∈ colon, isSpace c = true
  form_fits : ∀ c, (form c).Fits c

namespace Style

def quote (S : Style) (s : String) : List Char :=
  '"' :: (s.toList.flatMap fun c => (S.form c).encode c) ++ ['"']

def text (S : Style) : Token → List Char
  | .lbrace => ['{']
  | .rbrace => ['}']
  | .lbracket => ['[']
  | .rbracket => [']']
  | .colon => ':' :: S.colon
  | .comma => ',' :: S.comma
  | .null => ['n', 'u', 'l', 'l']
  | .bool true => ['t', 'r', 'u', 'e']
  | .bool false => ['f', 'a', 'l', 's', 'e']
  | .int i => intText i
  | .dec d => d.text
  | .str s => S.quote s

end Style

def Token.isWord : Token → Bool
  | .null | .bool _ | .int _ | .dec _ => true
  | _ => false

/-- No bare word is directly followed by another token than punctuation. -/
def WellSpaced : List Token → Prop
  | [] => True
  | [_] => True
  | t :: u :: ts => (t.isWord = true → ∃ c, punct? c = some u) ∧ WellSpaced (u :: ts)

/-! ## Bare words -/

theorem NumState.next_delimiter (s : NumState) : ∀ c ∈ delimiters, s.next c = none := by
  refine List.all_iff_forall_prop.mp ?_
  cases s <;> decide

theorem not_delimiter_of_scan {w : List Char} {s t : NumState} (h : s.scan w = some t) :
    ∀ c ∈ w, c ∉ delimiters := by
  apply NumState.forall_of_scan (P := fun c => c ∉ delimiters) _ h
  intro s t c hnext hdel
  rw [s.next_delimiter c hdel] at hnext
  cases hnext

/-- A word: what the scanner reads as one token up to the next delimiter. -/
structure IsWord (w : List Char) (t : Token) : Prop where
  ne_nil : w ≠ []
  not_delimiter : ∀ c ∈ w, c ∉ delimiters
  token : wordToken w = some t

theorem isWord_int (i : ℤ) : IsWord (intText i) (.int i) := by
  have hlit := isIntLiteral_intText i
  have hne : ∀ v : List Char, isIntLiteral v = false → intText i ≠ v := by
    rintro v hv h
    rw [h, hv] at hlit
    cases hlit
  refine ⟨hne [] (by decide), ?_, ?_⟩
  · simp only [isIntLiteral, decide_eq_true_eq] at hlit
    rcases hlit with h | h <;> exact not_delimiter_of_scan h
  · rw [wordToken, if_neg (hne _ (by decide)), if_neg (hne _ (by decide)),
      if_neg (hne _ (by decide)), if_pos hlit, intValue_intText]

theorem isWord_dec (d : DecimalLiteral) : IsWord d.text (.dec d) := by
  have hlit := d.decimal
  have hne : ∀ v : List Char, isDecimalLiteral v = false → d.text ≠ v := by
    rintro v hv h
    rw [h, hv] at hlit
    cases hlit
  have hint : ¬ isIntLiteral d.text = true := by
    simp only [isDecimalLiteral, isIntLiteral, decide_eq_true_eq] at hlit ⊢
    rcases hlit with h | h <;> simp [h]
  refine ⟨hne [] (by decide), ?_, ?_⟩
  · simp only [isDecimalLiteral, decide_eq_true_eq] at hlit
    rcases hlit with h | h <;> exact not_delimiter_of_scan h
  · rw [wordToken, if_neg (hne _ (by decide)), if_neg (hne _ (by decide)),
      if_neg (hne _ (by decide)), if_neg hint, dif_pos d.decimal]

/-- No literal name has a delimiter in it. -/
theorem plain_name {w : List Char} (hw : w ∈ [['n', 'u', 'l', 'l'], ['t', 'r', 'u', 'e'],
    ['f', 'a', 'l', 's', 'e']]) : ∀ c ∈ w, c ∉ delimiters := by
  have hall : ∀ w ∈ [['n', 'u', 'l', 'l'], ['t', 'r', 'u', 'e'], ['f', 'a', 'l', 's', 'e']],
      (w.all fun c => decide (c ∉ delimiters)) = true := by decide
  exact List.all_iff_forall_prop.mp (hall w hw)

theorem isWord_text (S : Style) : ∀ {t : Token}, t.isWord = true → IsWord (S.text t) t
  | .null, _ => ⟨List.cons_ne_nil _ _, plain_name (by simp [Style.text]), rfl⟩
  | .bool true, _ => ⟨List.cons_ne_nil _ _, plain_name (by simp [Style.text]), rfl⟩
  | .bool false, _ => ⟨List.cons_ne_nil _ _, plain_name (by simp [Style.text]), rfl⟩
  | .int i, _ => isWord_int i
  | .dec d, _ => isWord_dec d

theorem begin_of_not_delimiter {c : Char} (hc : c ∉ delimiters) :
    LexState.begin c = ([], .word [c]) := by
  have hspace : isSpace c = false := by
    apply decide_eq_false
    intro h
    apply hc
    exact (show [' ', '\t', '\n', '\r'] ⊆ delimiters by decide) h
  have hpunct : punct? c = none := by
    unfold punct?
    split <;> first | rfl | exact absurd (by decide) hc
  have hquote : c ≠ '"' := by
    rintro rfl
    exact hc (by decide)
  rw [LexState.begin, hspace, if_neg (by decide), if_neg hquote, hpunct]

theorem lex_cons_of_delimiter (lone : Option Char) {acc : List Char} {c : Char} {t : Token}
    (hc : c ∈ delimiters) (ht : wordToken acc.reverse = some t) (cs : List Char) :
    lex lone (.word acc) (c :: cs) = (lex lone .between (c :: cs)).map (t :: ·) := by
  simp only [lex, LexState.next, if_pos hc, ht, Option.map_some, Option.bind_some, Option.map_map,
    Function.comp_def, List.cons_append]

/-- A bare word, up to the delimiter behind it. -/
theorem lex_word (lone : Option Char) {w : List Char} {t : Token} (hw : IsWord w t)
    {rest : List Char} (hrest : ∀ c ∈ rest.head?, c ∈ delimiters) :
    lex lone .between (w ++ rest) = (lex lone .between rest).map (t :: ·) := by
  have hend : ∀ {acc : List Char}, acc.reverse = w →
      lex lone (.word acc) rest = (lex lone .between rest).map (t :: ·) := by
    intro acc hacc
    have ht : wordToken acc.reverse = some t := hacc ▸ hw.token
    cases rest with
    | nil => simp [lex, LexState.finish, ht]
    | cons c cs => exact lex_cons_of_delimiter lone (hrest c rfl) ht cs
  have hmore : ∀ {v acc : List Char}, acc.reverse ++ v = w →
      lex lone (.word acc) (v ++ rest) = (lex lone .between rest).map (t :: ·) := by
    intro v
    induction v with
    | nil => intro acc hacc; exact hend (by simpa using hacc)
    | cons c v ih =>
        intro acc hacc
        have hc : c ∉ delimiters := hw.not_delimiter c (by rw [← hacc]; simp)
        rw [List.cons_append, lex, LexState.next, if_neg hc]
        simp only [Option.bind_some, List.nil_append, Option.map_id_fun', id_eq]
        exact ih (by simpa using hacc)
  obtain ⟨c, v, hcv⟩ := List.exists_cons_of_ne_nil hw.ne_nil
  have hc : c ∉ delimiters := hw.not_delimiter c (by rw [hcv]; exact List.mem_cons_self)
  have hv := @hmore v [c] (by rw [hcv]; rfl)
  rw [hcv, List.cons_append, lex, LexState.next, begin_of_not_delimiter hc]
  simpa only [Option.bind_some, List.nil_append, Option.map_id_fun', id_eq] using hv

/-! ## Punctuation, white space and strings -/

theorem lex_space (lone : Option Char) {ws : List Char} (hws : ∀ c ∈ ws, isSpace c = true)
    (rest : List Char) : lex lone .between (ws ++ rest) = lex lone .between rest := by
  induction ws with
  | nil => rfl
  | cons c ws ih =>
      rw [List.cons_append, lex, LexState.next, LexState.begin, if_pos (hws c List.mem_cons_self)]
      simpa using ih fun d hd => hws d (List.mem_cons_of_mem _ hd)

theorem punct?_delimiter {c : Char} {t : Token} (hc : punct? c = some t) :
    c ∈ delimiters ∧ isSpace c = false ∧ c ≠ '"' := by
  unfold punct? at hc
  split at hc <;> simp_all [delimiters, isSpace]

theorem lex_punct (lone : Option Char) {c : Char} {t : Token} (hc : punct? c = some t)
    (rest : List Char) :
    lex lone .between (c :: rest) = (lex lone .between rest).map (t :: ·) := by
  obtain ⟨-, hspace, hquote⟩ := punct?_delimiter hc
  rw [lex, LexState.next, LexState.begin, hspace, if_neg (by decide), if_neg hquote, hc]
  rfl

theorem lex_plain (lone : Option Char) {w : List Char} (hw : ∀ c ∈ w, c ≠ '"' ∧ c ≠ '\\')
    (acc cs : List Char) :
    lex lone (.quoted acc) (w ++ cs) = lex lone (.quoted (w.reverse ++ acc)) cs := by
  induction w generalizing acc with
  | nil => rfl
  | cons c w ih =>
      obtain ⟨hquote, hslash⟩ := hw c List.mem_cons_self
      rw [List.cons_append, lex, LexState.next, if_neg hquote, if_neg hslash]
      simpa using ih (fun d hd => hw d (List.mem_cons_of_mem _ hd)) (c :: acc)

theorem lex_escape (lone : Option Char) (acc cs : List Char) (e : Char) :
    lex lone (.quoted acc) ('\\' :: e :: cs) = lex lone (.quoted (e :: '\\' :: acc)) cs := by
  simp [lex, LexState.next, Function.comp_def]

theorem hex4_plain {u : ℕ} (hu : u < 0x10000) : ∀ c ∈ hex4 u, c ≠ '"' ∧ c ≠ '\\' := by
  have hdigit : ∀ {d : ℕ}, d < 16 → d.digitChar ≠ '"' ∧ d.digitChar ≠ '\\' := by
    intro d hd
    interval_cases d <;> decide
  intro c hc
  simp only [hex4, List.mem_cons, List.not_mem_nil, or_false] at hc
  rcases hc with rfl | rfl | rfl | rfl <;> exact hdigit (by omega)

theorem lex_hex (lone : Option Char) {u : ℕ} (hu : u < 0x10000) (acc cs : List Char) :
    lex lone (.quoted acc) ('\\' :: 'u' :: (hex4 u ++ cs))
      = lex lone (.quoted ((hex4 u).reverse ++ 'u' :: '\\' :: acc)) cs := by
  rw [lex_escape, lex_plain lone (hex4_plain hu)]

theorem lex_encode (lone : Option Char) {f : CharForm} {c : Char} (hf : f.Fits c)
    (acc cs : List Char) :
    lex lone (.quoted acc) (f.encode c ++ cs)
      = lex lone (.quoted ((f.encode c).reverse ++ acc)) cs := by
  cases f with
  | raw => exact lex_plain lone (by rintro d hd; simp_all [CharForm.encode, CharForm.Fits]) acc cs
  | short => exact lex_escape lone acc cs _
  | hex =>
      have h := lex_hex lone hf acc cs
      simpa [CharForm.encode] using h
  | pair =>
      have hc := char_toNat_lt c
      have hhigh := lex_hex lone (show highSurrogate c < 0x10000 by unfold highSurrogate; omega) acc
        ('\\' :: 'u' :: (hex4 (lowSurrogate c) ++ cs))
      rw [lex_hex lone (show lowSurrogate c < 0x10000 by unfold lowSurrogate; omega)] at hhigh
      simpa [CharForm.encode] using hhigh

/-- A string, whatever form each of its characters has. -/
theorem lex_string (lone : Option Char) {cs : List (CharForm × Char)}
    (hcs : ∀ p ∈ cs, p.1.Fits p.2) (rest : List Char) :
    lex lone .between ('"' :: (cs.flatMap fun p => p.1.encode p.2) ++ '"' :: rest)
      = (lex lone .between rest).map (.str (String.ofList (cs.map Prod.snd)) :: ·) := by
  have hbody : ∀ acc : List Char,
      lex lone (.quoted acc) ((cs.flatMap fun p => p.1.encode p.2) ++ '"' :: rest)
        = lex lone (.quoted ((cs.flatMap fun p => p.1.encode p.2).reverse ++ acc))
            ('"' :: rest) := by
    induction cs with
    | nil => intro acc; rfl
    | cons p cs ih =>
        intro acc
        rw [List.flatMap_cons, List.append_assoc, lex_encode lone (hcs p List.mem_cons_self),
          ih fun q hq => hcs q (List.mem_cons_of_mem _ hq)]
        simp
  have hbegin : LexState.begin '"' = ([], .quoted []) := rfl
  rw [List.cons_append, lex, LexState.next, hbegin]
  simp only [Option.bind_some, List.nil_append, Option.map_id_fun', id_eq]
  rw [hbody, lex, LexState.next, if_pos rfl, List.append_nil, List.reverse_reverse,
    decodeString_encode hcs]
  rfl

theorem lex_quote (lone : Option Char) (S : Style) (s : String) (rest : List Char) :
    lex lone .between (S.quote s ++ rest) = (lex lone .between rest).map (.str s :: ·) := by
  have hcs : ∀ p ∈ s.toList.map fun c => (S.form c, c), p.1.Fits p.2 := by
    intro p hp
    obtain ⟨c, -, rfl⟩ := List.mem_map.mp hp
    exact S.form_fits c
  have h := lex_string lone hcs rest
  simpa [Style.quote, List.flatMap_map, Function.comp_def] using h

/-- A token that is no bare word, whatever is behind it. -/
theorem lex_token (lone : Option Char) (S : Style) {t : Token} (ht : t.isWord = false)
    (rest : List Char) :
    lex lone .between (S.text t ++ rest) = (lex lone .between rest).map (t :: ·) := by
  cases t with
  | str s => exact lex_quote lone S s _
  | lbrace => exact lex_punct lone rfl _
  | rbrace => exact lex_punct lone rfl _
  | lbracket => exact lex_punct lone rfl _
  | rbracket => exact lex_punct lone rfl _
  | colon =>
      rw [Style.text, List.cons_append, lex_punct lone (t := .colon) rfl,
        lex_space lone S.colon_space]
  | comma =>
      rw [Style.text, List.cons_append, lex_punct lone (t := .comma) rfl,
        lex_space lone S.comma_space]
  | null => cases ht
  | bool b => cases ht
  | int i => cases ht
  | dec d => cases ht

/-- **Scanning undoes writing**, in every style. -/
theorem lex_text (lone : Option Char) (S : Style) : ∀ {ts : List Token}, WellSpaced ts →
    lex lone .between (ts.flatMap S.text) = some ts
  | [], _ => rfl
  | t :: ts, h => by
      have hts : WellSpaced ts := by
        cases ts with
        | nil => trivial
        | cons u us => exact h.2
      have ih := lex_text lone S hts
      have hone : lex lone .between (S.text t ++ ts.flatMap S.text)
          = (lex lone .between (ts.flatMap S.text)).map (t :: ·) := by
        by_cases hw : t.isWord = true
        · -- a word ends where the punctuation behind it begins
          apply lex_word lone (isWord_text S hw)
          cases ts with
          | nil => intro c hc; cases hc
          | cons u us =>
              obtain ⟨p, hp⟩ := h.1 hw
              intro c hc
              have hcp : c = p := by
                unfold punct? at hp
                split at hp <;> cases hp <;> simpa [Style.text] using hc.symm
              exact hcp ▸ (punct?_delimiter hp).1
        · exact lex_token lone S (Bool.eq_false_of_not_eq_true hw) _
      rw [List.flatMap_cons, hone, ih]
      rfl

end KernelQ.Foundation
