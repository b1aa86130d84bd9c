import KernelQ.Foundation.JsonToken
import KernelQ.Foundation.Runs

/-!
# JSON values

A decoder is a pushdown machine over tokens: what it expects next, and the
arrays and objects still open. `parse` runs it over the scanned text;
`parse_render` is the round trip, for every style of writing. Object members
keep their order and their duplicates: what a duplicate means is the reader's
business.
-/

namespace KernelQ.Foundation

inductive Json
  | null
  | bool (b : Bool)
  | int (i : ℤ)
  | dec (d : DecimalLiteral)
  | str (s : String)
  | arr (items : List Json)
  | obj (fields : List (String × Json))

namespace Json

/-! ## Tokens of a value -/

mutual

def tokens : Json → List Token
  | null => [.null]
  | bool b => [.bool b]
  | int i => [.int i]
  | dec d => [.dec d]
  | str s => [.str s]
  | arr [] => [.lbracket, .rbracket]
  | arr (x :: xs) => .lbracket :: (x.tokens ++ itemsTokens xs)
  | obj [] => [.lbrace, .rbrace]
  | obj ((k, x) :: fs) => .lbrace :: .str k :: .colon :: (x.tokens ++ fieldsTokens fs)

/-- The rest of an array, behind its first item. -/
def itemsTokens : List Json → List Token
  | [] => [.rbracket]
  | x :: xs => .comma :: (x.tokens ++ itemsTokens xs)

/-- The rest of an object, behind its first member. -/
def fieldsTokens : List (String × Json) → List Token
  | [] => [.rbrace]
  | (k, x) :: fs => .comma :: .str k :: .colon :: (x.tokens ++ fieldsTokens fs)

end

def render (S : Style) (v : Json) : List Char := v.tokens.flatMap S.text

/-! ## The decoder -/

/-- An array or an object that is still open: what it holds so far. -/
inductive Frame
  | arr (items : List Json)
  | obj (fields : List (String × Json)) (key : String)

inductive Expect
  | value
  | key (fields : List (String × Json))
  | colon (fields : List (String × Json)) (key : String)
  | after (v : Json)

structure Decoder where
  expect : Expect
  stack : List Frame

namespace Decoder

def feed : Decoder → Token → Option Decoder
  | ⟨.value, st⟩, .null => some ⟨.after .null, st⟩
  | ⟨.value, st⟩, .bool b => some ⟨.after (.bool b), st⟩
  | ⟨.value, st⟩, .int i => some ⟨.after (.int i), st⟩
  | ⟨.value, st⟩, .dec d => some ⟨.after (.dec d), st⟩
  | ⟨.value, st⟩, .str s => some ⟨.after (.str s), st⟩
  | ⟨.value, st⟩, .lbracket => some ⟨.value, .arr [] :: st⟩
  | ⟨.value, st⟩, .lbrace => some ⟨.key [], st⟩
  -- only an array without items may close where a value is expected
  | ⟨.value, .arr [] :: st⟩, .rbracket => some ⟨.after (.arr []), st⟩
  | ⟨.key fs, st⟩, .str k => some ⟨.colon fs k, st⟩
  | ⟨.key [], st⟩, .rbrace => some ⟨.after (.obj []), st⟩
  | ⟨.colon fs k, st⟩, .colon => some ⟨.value, .obj fs k :: st⟩
  | ⟨.after v, .arr xs :: st⟩, .comma => some ⟨.value, .arr (xs ++ [v]) :: st⟩
  | ⟨.after v, .arr xs :: st⟩, .rbracket => some ⟨.after (.arr (xs ++ [v])), st⟩
  | ⟨.after v, .obj fs k :: st⟩, .comma => some ⟨.key (fs ++ [(k, v)]), st⟩
  | ⟨.after v, .obj fs k :: st⟩, .rbrace => some ⟨.after (.obj (fs ++ [(k, v)])), st⟩
  | _, _ => none

def machine : Machine Decoder Token := ⟨feed⟩

def result : Decoder → Option Json
  | ⟨.after v, []⟩ => some v
  | _ => none

end Decoder

def ofTokens (ts : List Token) : Option Json :=
  (Decoder.machine.run ⟨.value, []⟩ ts).bind Decoder.result

def parse (lone : Option Char) (text : List Char) : Option Json :=
  (lex lone .between text).bind ofTokens

/-! ## The round trip -/

private theorem run_feed {d d' : Decoder} {t : Token} (h : d.feed t = some d') (ts : List Token) :
    Decoder.machine.run d (t :: ts) = Decoder.machine.run d' ts := by
  change (d.feed t).bind _ = _
  rw [h]
  rfl

mutual

/-- **Where a value is expected, its tokens are read as that value.** -/
theorem run_tokens : ∀ (v : Json) (st : List Frame) (ts : List Token),
    Decoder.machine.run ⟨.value, st⟩ (v.tokens ++ ts) = Decoder.machine.run ⟨.after v, st⟩ ts
  | .null, _, ts => run_feed rfl ts
  | .bool _, _, ts => run_feed rfl ts
  | .int _, _, ts => run_feed rfl ts
  | .dec _, _, ts => run_feed rfl ts
  | .str _, _, ts => run_feed rfl ts
  | .arr [], st, ts => by
      rw [tokens, List.cons_append, run_feed rfl, List.cons_append, run_feed rfl]
      rfl
  | .arr (x :: xs), st, ts => by
      rw [tokens, List.cons_append, run_feed rfl, List.append_assoc, run_tokens x, run_items xs]
      rfl
  | .obj [], st, ts => by
      rw [tokens, List.cons_append, run_feed rfl, List.cons_append, run_feed rfl]
      rfl
  | .obj ((k, x) :: fs), st, ts => by
      rw [tokens, List.cons_append, run_feed rfl, List.cons_append, run_feed rfl,
        List.cons_append, run_feed rfl, List.append_assoc, run_tokens x, run_fields fs]
      rfl

theorem run_items : ∀ (xs : List Json) (acc : List Json) (v : Json) (st : List Frame)
    (ts : List Token),
    Decoder.machine.run ⟨.after v, .arr acc :: st⟩ (itemsTokens xs ++ ts)
      = Decoder.machine.run ⟨.after (.arr (acc ++ v :: xs)), st⟩ ts
  | [], _, _, _, ts => run_feed rfl ts
  | x :: xs, acc, v, st, ts => by
      rw [itemsTokens, List.cons_append, run_feed rfl, List.append_assoc, run_tokens x,
        run_items xs, List.append_assoc]
      rfl

theorem run_fields : ∀ (fs acc : List (String × Json)) (k : String) (v : Json)
    (st : List Frame) (ts : List Token),
    Decoder.machine.run ⟨.after v, .obj acc k :: st⟩ (fieldsTokens fs ++ ts)
      = Decoder.machine.run ⟨.after (.obj (acc ++ (k, v) :: fs)), st⟩ ts
  | [], _, _, _, _, ts => run_feed rfl ts
  | (k', x) :: fs, acc, k, v, st, ts => by
      rw [fieldsTokens, List.cons_append, run_feed rfl, List.cons_append, run_feed rfl,
        List.cons_append, run_feed rfl, List.append_assoc, run_tokens x, run_fields fs,
        List.append_assoc]
      rfl

end

theorem ofTokens_tokens (v : Json) : ofTokens v.tokens = some v := by
  have h := run_tokens v [] []
  rw [List.append_nil] at h
  rw [ofTokens, h]
  rfl

/-- What may follow a bare word. -/
private def Punctual (ts : List Token) : Prop := ∀ t ∈ ts.head?, ∃ c, punct? c = some t

private theorem punctual_cons {t : Token} (c : Char) (hc : punct? c = some t) (ts : List Token) :
    Punctual (t :: ts) := by
  rintro u hu
  cases hu
  exact ⟨c, hc⟩

private theorem wellSpaced_cons {t : Token} {ts : List Token} (hts : WellSpaced ts)
    (h : t.isWord = true → Punctual ts) : WellSpaced (t :: ts) := by
  cases ts with
  | nil => trivial
  | cons u us => exact ⟨fun hw => h hw u rfl, hts⟩

private theorem wellSpaced_cons' {t : Token} {ts : List Token} (hts : WellSpaced ts)
    (ht : t.isWord = false) : WellSpaced (t :: ts) :=
  wellSpaced_cons hts fun hw => by rw [ht] at hw; cases hw

mutual

theorem wellSpaced_tokens : ∀ (v : Json) (ts : List Token), WellSpaced ts → Punctual ts →
    WellSpaced (v.tokens ++ ts)
  | .null, _, h, hp => wellSpaced_cons h fun _ => hp
  | .bool _, _, h, hp => wellSpaced_cons h fun _ => hp
  | .int _, _, h, hp => wellSpaced_cons h fun _ => hp
  | .dec _, _, h, hp => wellSpaced_cons h fun _ => hp
  | .str _, _, h, _ => wellSpaced_cons' h rfl
  | .arr [], _, h, _ => wellSpaced_cons' (wellSpaced_cons' h rfl) rfl
  | .arr (x :: xs), ts, h, _ => by
      rw [tokens, List.cons_append, List.append_assoc]
      obtain ⟨hitems, hp⟩ := wellSpaced_items xs ts h
      exact wellSpaced_cons' (wellSpaced_tokens x _ hitems hp) rfl
  | .obj [], _, h, _ => wellSpaced_cons' (wellSpaced_cons' h rfl) rfl
  | .obj ((k, x) :: fs), ts, h, _ => by
      rw [tokens, List.cons_append, List.cons_append, List.cons_append, List.append_assoc]
      obtain ⟨hfields, hp⟩ := wellSpaced_fields fs ts h
      exact wellSpaced_cons' (wellSpaced_cons'
        (wellSpaced_cons' (wellSpaced_tokens x _ hfields hp) rfl) rfl) rfl

theorem wellSpaced_items : ∀ (xs : List Json) (ts : List Token), WellSpaced ts →
    WellSpaced (itemsTokens xs ++ ts) ∧ Punctual (itemsTokens xs ++ ts)
  | [], ts, h => ⟨wellSpaced_cons' h rfl, punctual_cons ']' rfl ts⟩
  | x :: xs, ts, h => by
      rw [itemsTokens, List.cons_append, List.append_assoc]
      obtain ⟨hitems, hp⟩ := wellSpaced_items xs ts h
      exact ⟨wellSpaced_cons' (wellSpaced_tokens x _ hitems hp) rfl, punctual_cons ',' rfl _⟩

theorem wellSpaced_fields : ∀ (fs : List (String × Json)) (ts : List Token), WellSpaced ts →
    WellSpaced (fieldsTokens fs ++ ts) ∧ Punctual (fieldsTokens fs ++ ts)
  | [], ts, h => ⟨wellSpaced_cons' h rfl, punctual_cons '}' rfl ts⟩
  | (k, x) :: fs, ts, h => by
      rw [fieldsTokens, List.cons_append, List.cons_append, List.cons_append, List.append_assoc]
      obtain ⟨hfields, hp⟩ := wellSpaced_fields fs ts h
      exact ⟨wellSpaced_cons' (wellSpaced_cons'
        (wellSpaced_cons' (wellSpaced_tokens x _ hfields hp) rfl) rfl) rfl,
        punctual_cons ',' rfl _⟩

end

/-- **Parsing undoes rendering**, in every style and whatever an unpaired
surrogate would decode to. -/
theorem parse_render (lone : Option Char) (S : Style) (v : Json) :
    parse lone (v.render S) = some v := by
  have hspaced : WellSpaced v.tokens := by
    have h := wellSpaced_tokens v [] trivial (by rintro t ht; cases ht)
    rwa [List.append_nil] at h
  rw [parse, render, lex_text lone S hspaced]
  exact ofTokens_tokens v

end Json

end KernelQ.Foundation
