import KernelQ.Foundation.JsonToken

/-!
# The inside of a JSON string

What an encoder writes between two quotation marks. The text ends at the first quotation mark
without a backslash before it, so that a reader needs nothing behind it to know where it ends
(`quote_append_inj`), and whatever is written for a character is either that character or made
of `escapeChars` (`raw_or_encode_subset`).
-/

namespace KernelQ.Foundation

/-- The characters escapes are made of. -/
def escapeChars : List Char :=
  ['\\', '"', '/', 'b', 'f', 'n', 'r', 't', 'u', '0', '1', '2', '3', '4', '5', '6', '7', '8', '9',
    'a', 'c', 'd', 'e']

theorem hex4_subset {u : ℕ} (hu : u < 0x10000) : hex4 u ⊆ escapeChars := by
  have hdigit : ∀ {d : ℕ}, d < 16 → d.digitChar ∈ escapeChars := by
    intro d hd
    interval_cases d <;> decide
  intro c hc
  simp only [hex4, List.mem_cons, List.not_mem_nil, or_false] at hc
  rcases hc with rfl | rfl | rfl | rfl <;> exact hdigit (by omega)

theorem mem_of_shortEscape? {e c : Char} (h : shortEscape? e = some c) : e ∈ escapeChars := by
  unfold shortEscape? at h
  split at h <;> first | decide | cases h

/-- The character as it is, or an escape. -/
theorem raw_or_encode_subset {f : CharForm} {c : Char} (hf : f.Fits c) :
    f = .raw ∨ f.encode c ⊆ escapeChars := by
  cases f with
  | raw => exact Or.inl rfl
  | short =>
      right
      intro d hd
      rcases List.mem_cons.mp hd with rfl | hd
      · decide
      · rw [List.mem_singleton.mp hd]
        exact mem_of_shortEscape? hf
  | hex =>
      right
      intro d hd
      simp only [CharForm.encode, List.mem_cons] at hd
      rcases hd with rfl | rfl | hd
      · decide
      · decide
      · exact hex4_subset hf hd
  | pair =>
      have hc := char_toNat_lt c
      right
      intro d hd
      simp only [CharForm.encode, List.cons_append, List.mem_cons, List.mem_append] at hd
      rcases hd with rfl | rfl | hd | rfl | rfl | hd
      · decide
      · decide
      · exact hex4_subset (by unfold highSurrogate; omega) hd
      · decide
      · decide
      · exact hex4_subset (by unfold lowSurrogate; omega) hd

/-! ## Where a string ends -/

/-- The text up to the closing quotation mark, and what is behind it. -/
def closing : List Char → Option (List Char × List Char)
  | [] => none
  | '\\' :: e :: cs => (closing cs).map fun p => ('\\' :: e :: p.1, p.2)
  | c :: cs => if c = '"' then some ([], cs) else (closing cs).map fun p => (c :: p.1, p.2)

theorem closing_plain {w : List Char} (hw : ∀ c ∈ w, c ≠ '"' ∧ c ≠ '\\') (cs : List Char) :
    closing (w ++ cs) = (closing cs).map fun p => (w ++ p.1, p.2) := by
  induction w with
  | nil => simp
  | cons c w ih =>
      obtain ⟨hquote, hslash⟩ := hw c List.mem_cons_self
      rw [List.cons_append, closing, if_neg hquote, ih fun d hd => hw d (List.mem_cons_of_mem _ hd),
        Option.map_map]
      · rfl
      · rintro e rest h -
        exact hslash h

theorem closing_encode {f : CharForm} {c : Char} (hf : f.Fits c) (cs : List Char) :
    closing (f.encode c ++ cs) = (closing cs).map fun p => (f.encode c ++ p.1, p.2) := by
  have hhex : ∀ {u : ℕ}, u < 0x10000 → ∀ cs : List Char,
      closing ('\\' :: 'u' :: (hex4 u ++ cs)) =
        (closing cs).map fun p => ('\\' :: 'u' :: (hex4 u ++ p.1), p.2) := by
    intro u hu cs
    rw [closing, closing_plain (hex4_plain hu), Option.map_map]
    rfl
  cases f with
  | raw =>
      apply closing_plain
      intro d hd
      rw [List.mem_singleton.mp hd]
      exact ⟨hf.1, hf.2.1⟩
  | short => rfl
  | hex => exact hhex hf cs
  | pair =>
      have hc := char_toNat_lt c
      simp only [CharForm.encode, List.cons_append, List.append_assoc]
      rw [hhex (by unfold highSurrogate; omega), hhex (by unfold lowSurrogate; omega),
        Option.map_map]
      rfl

namespace Style

variable (S : Style)

/-- What is written between the quotation marks. -/
def body (cs : List Char) : List Char := cs.flatMap fun c => (S.form c).encode c

theorem quote_eq (s : String) : S.quote s = '"' :: (S.body s.toList ++ ['"']) := rfl

@[simp] theorem body_nil : S.body [] = [] := rfl

@[simp] theorem body_cons (c : Char) (cs : List Char) :
    S.body (c :: cs) = (S.form c).encode c ++ S.body cs := rfl

@[simp] theorem body_append (cs ds : List Char) : S.body (cs ++ ds) = S.body cs ++ S.body ds :=
  List.flatMap_append

theorem closing_body (cs rest : List Char) :
    closing (S.body cs ++ '"' :: rest) = some (S.body cs, rest) := by
  induction cs with
  | nil => rfl
  | cons c cs ih =>
      rw [body_cons, List.append_assoc, closing_encode (S.form_fits c), ih]
      rfl

theorem body_injective : Function.Injective S.body := by
  intro cs ds h
  have hdecode : ∀ cs : List Char, decodeString none (S.body cs) = some (String.ofList cs) := by
    intro cs
    have hfits : ∀ p ∈ cs.map fun c => (S.form c, c), p.1.Fits p.2 := by
      intro p hp
      obtain ⟨c, -, rfl⟩ := List.mem_map.mp hp
      exact S.form_fits c
    have hcs := decodeString_encode hfits none
    simpa [body, List.flatMap_map, Function.comp_def] using hcs
  have hboth := hdecode cs
  rw [h, hdecode ds, Option.some.injEq, String.ofList_inj] at hboth
  exact hboth.symm

/-- **A string ends where it ends**, whatever comes behind it. -/
theorem quote_append_inj {s t : String} {r r' : List Char}
    (h : S.quote s ++ r = S.quote t ++ r') : s = t ∧ r = r' := by
  rw [quote_eq, quote_eq, List.cons_append, List.cons_append, List.append_assoc,
    List.append_assoc] at h
  have htail : S.body s.toList ++ '"' :: r = S.body t.toList ++ '"' :: r' :=
    List.tail_eq_of_cons_eq h
  have hclosing := S.closing_body s.toList r
  rw [htail, S.closing_body t.toList r', Option.some.injEq, Prod.mk.injEq] at hclosing
  exact ⟨String.toList_inj.mp (S.body_injective hclosing.1.symm), hclosing.2.symm⟩

/-- A text as it may stand between quotation marks. -/
def Escaped (w : List Char) : Prop := ∃ cs, S.body cs = w

/-- **A text in front of a character that no escape has** is escaped itself, if it lies before
the closing quotation mark. -/
theorem escaped_of_append_eq {d : Char} (hescape : d ∉ escapeChars) {w cs x y : List Char}
    (hquote : '"' ∉ w) (h : w ++ d :: x = S.body cs ++ '"' :: y) : S.Escaped w := by
  induction cs generalizing w with
  | nil =>
      cases w with
      | nil => exact ⟨[], rfl⟩
      | cons c w =>
          rw [body_nil, List.nil_append, List.cons_append, List.cons.injEq] at h
          exact absurd (h.1 ▸ List.mem_cons_self) hquote
  | cons c cs ih =>
      rw [body_cons, List.append_assoc] at h
      rcases List.append_eq_append_iff.mp h with ⟨v, hv, htail⟩ | ⟨v, rfl, htail⟩
      · cases v with
        | nil => exact ⟨[c], by rw [body_cons, body_nil, List.append_nil, hv, List.append_nil]⟩
        | cons e v =>
            -- `d` belongs to what is written for `c`, and so it is all of it
            obtain ⟨rfl, -⟩ := List.cons.inj htail
            rcases raw_or_encode_subset (S.form_fits c) with hraw | hsubset
            · rw [hraw, CharForm.encode, eq_comm, List.append_eq_singleton_iff] at hv
              rcases hv with ⟨rfl, -⟩ | ⟨-, hnil⟩
              · exact ⟨[], rfl⟩
              · cases hnil
            · exact absurd (hsubset (by rw [hv]; simp)) hescape
      · obtain ⟨ds, rfl⟩ := ih (fun hv => hquote (List.mem_append_right _ hv)) htail.symm
        exact ⟨c :: ds, rfl⟩

end Style

end KernelQ.Foundation
