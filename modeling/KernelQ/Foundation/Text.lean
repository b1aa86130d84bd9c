import Mathlib.Data.List.DropRight

/-!
# Trimming, joining, and text from bytes

`trim p` drops the characters in `p` at both ends. `runes` is the lenient UTF-8
decoder: a byte that starts no well-formed sequence becomes U+FFFD, and decoding
goes on behind it. On the encoding of a string it is exact (`runes_toUTF8`).
-/

namespace KernelQ.Foundation

/-! ## Trimming -/

def trim (p : Char → Bool) (s : String) : String :=
  String.ofList ((s.toList.dropWhile p).rdropWhile p)

theorem trim_eq_empty_iff (p : Char → Bool) (s : String) :
    trim p s = "" ↔ ∀ c ∈ s.toList, p c = true := by
  rw [trim, String.ofList_eq_empty_iff, List.rdropWhile_eq_nil_iff]
  constructor
  · intro h c hc
    rw [← List.takeWhile_append_dropWhile (p := p) (l := s.toList), List.mem_append] at hc
    rcases hc with hc | hc
    · exact List.mem_takeWhile_imp hc
    · exact h c hc
  · intro h c hc
    exact h c ((List.dropWhile_suffix p).subset hc)

/-- A set that is dropped first, and is part of what is dropped next, makes no
difference. -/
theorem trim_eq_empty_of_le {p q : Char → Bool} (hpq : ∀ c, p c = true → q c = true) {s : String}
    (h : trim p s = "") : trim q s = "" := by
  rw [trim_eq_empty_iff] at h ⊢
  intro c hc
  exact hpq c (h c hc)

theorem rdropWhile_append_of_all {q : Char → Bool} {l b : List Char} (hb : ∀ c ∈ b, q c = true) :
    (l ++ b).rdropWhile q = l.rdropWhile q := by
  rw [List.rdropWhile, List.rdropWhile, List.reverse_append,
    List.dropWhile_append_of_pos fun c hc => hb c (List.mem_reverse.mp hc)]

/-- What is dropped at the end need not have been there. -/
theorem trim_append_of_all {p : Char → Bool} (s : String) {t : String}
    (ht : ∀ c ∈ t.toList, p c = true) : trim p (s ++ t) = trim p s := by
  rw [trim, trim, String.toList_append, List.dropWhile_append]
  split
  · rename_i hempty
    rw [List.isEmpty_iff] at hempty
    rw [hempty, List.dropWhile_eq_nil_iff.mpr ht]
  · rw [rdropWhile_append_of_all ht]

/-- What a smaller set drops, the larger one drops as well. -/
theorem trim_trim_of_le {p q : Char → Bool} (hpq : ∀ c, p c = true → q c = true) (s : String) :
    trim q (trim p s) = trim q s := by
  obtain ⟨mid, hmid⟩ : ∃ mid, s.toList.dropWhile p = mid := ⟨_, rfl⟩
  have hs : s.toList = s.toList.takeWhile p ++ mid := by
    rw [← hmid, List.takeWhile_append_dropWhile]
  have hb : ∀ c ∈ mid.rtakeWhile p, q c = true := fun c hc => hpq c (List.mem_rtakeWhile_imp hc)
  have hback : mid.rdropWhile p ++ mid.rtakeWhile p = mid := List.rdropWhile_append_rtakeWhile
  have hdrop : s.toList.dropWhile q = mid.dropWhile q := by
    rw [hs, List.dropWhile_append_of_pos fun c hc => hpq c (List.mem_takeWhile_imp hc)]
  rw [trim, trim, trim, String.toList_ofList, hmid, hdrop]
  congr 1
  conv_rhs => rw [← hback]
  rw [List.dropWhile_append]
  split
  · rename_i hempty
    rw [List.isEmpty_iff] at hempty
    rw [hempty, List.dropWhile_eq_nil_iff.mpr hb]
  · rw [rdropWhile_append_of_all hb]

/-- What is left of a text begins and ends with characters that are not dropped. -/
theorem trim_spec (p : Char → Bool) (s : String) :
    ∃ a b, s.toList = a ++ (trim p s).toList ++ b ∧ (∀ c ∈ a, p c = true) ∧
      (∀ c ∈ b, p c = true) ∧ (∀ c m, (trim p s).toList = c :: m → p c = false) ∧
      ∀ m c, (trim p s).toList = m ++ [c] → p c = false := by
  rw [trim, String.toList_ofList]
  refine ⟨s.toList.takeWhile p, (s.toList.dropWhile p).rtakeWhile p, ?_, ?_, ?_, ?_, ?_⟩
  · rw [List.append_assoc, List.rdropWhile_append_rtakeWhile, List.takeWhile_append_dropWhile]
  · exact fun c hc => List.mem_takeWhile_imp hc
  · exact fun c hc => List.mem_rtakeWhile_imp hc
  · intro c m hm
    obtain ⟨rest, hrest⟩ := List.rdropWhile_prefix p (l := s.toList.dropWhile p)
    rw [hm, List.cons_append] at hrest
    have hhead := List.head?_dropWhile_not p s.toList
    rw [← hrest] at hhead
    exact hhead
  · intro m c hm
    have hlast := List.rdropWhile_last_not p (s.toList.dropWhile p) (by simp [hm])
    simpa [hm] using hlast

/-- Text that begins and ends with characters that are not dropped is what is left. -/
theorem trim_eq_of_append {p : Char → Bool} {s : String} {a m b : List Char}
    (hs : s.toList = a ++ m ++ b) (ha : ∀ c ∈ a, p c = true) (hb : ∀ c ∈ b, p c = true)
    (hhead : ∀ c t, m = c :: t → p c = false) (hlast : ∀ t c, m = t ++ [c] → p c = false) :
    trim p s = String.ofList m := by
  rw [trim, hs, List.append_assoc, List.dropWhile_append_of_pos ha]
  congr 1
  cases m with
  | nil => rw [List.nil_append, List.dropWhile_eq_nil_iff.mpr hb, List.rdropWhile_nil]
  | cons c t =>
      rw [List.cons_append, List.dropWhile_cons_of_neg (by simp [hhead c t rfl]),
        ← List.cons_append, rdropWhile_append_of_all hb, List.rdropWhile_eq_self_iff]
      intro hne
      rw [hlast _ _ (List.dropLast_append_getLast hne).symm]
      exact Bool.false_ne_true

/-- A character that only `q` drops, with nothing but characters that `p` drops on one
side. -/
def OnEdge (p q : Char → Bool) (s : String) : Prop :=
  ∃ pre c post, s.toList = pre ++ c :: post ∧ p c = false ∧ q c = true ∧
    ((∀ x ∈ pre, p x = true) ∨ ∀ x ∈ post, p x = true)

/-- **Two trims agree** exactly if none of the characters they differ in is on an
edge. -/
theorem trim_eq_trim_iff {p q : Char → Bool} (hpq : ∀ c, p c = true → q c = true) {s : String} :
    trim q s = trim p s ↔ ¬ OnEdge p q s := by
  obtain ⟨a, b, hs, ha, hb, hhead, hlast⟩ := trim_spec p s
  constructor
  · rintro heq ⟨pre, c, post, hsplit, hp, hq, hedge⟩
    obtain ⟨-, -, -, -, -, hhead', hlast'⟩ := trim_spec q s
    rw [heq] at hhead' hlast'
    have hne : (trim p s).toList ≠ [] := by
      intro hempty
      have hall := (trim_eq_empty_iff p s).mp (String.toList_eq_nil_iff.mp hempty) c
        (by simp [hsplit])
      rw [hp] at hall
      cases hall
    -- the narrower trim stops at `c`, so that is where what is left begins or ends
    rcases hedge with hpre | hpost
    · obtain ⟨d, t, hm⟩ := List.exists_cons_of_ne_nil hne
      have hdrop : s.toList.dropWhile p = c :: post := by
        rw [hsplit, List.dropWhile_append_of_pos hpre, List.dropWhile_cons_of_neg (by simp [hp])]
      rw [hs, hm, List.append_assoc, List.dropWhile_append_of_pos ha, List.cons_append,
        List.dropWhile_cons_of_neg (by simp [hhead d t hm])] at hdrop
      rw [(List.cons.inj hdrop).1] at hm
      rw [hhead' c t hm] at hq
      cases hq
    · obtain ⟨t, d, hm⟩ := (List.eq_nil_or_concat (trim p s).toList).resolve_left hne
      rw [List.concat_eq_append] at hm
      have hdrop : s.toList.rdropWhile p = pre ++ [c] := by
        rw [hsplit, List.append_cons, rdropWhile_append_of_all hpost,
          List.rdropWhile_concat_neg _ _ _ (by simp [hp])]
      rw [hs, hm, rdropWhile_append_of_all hb, ← List.append_assoc,
        List.rdropWhile_concat_neg _ _ _ (by simp [hlast t d hm])] at hdrop
      obtain ⟨-, hd⟩ := List.append_inj' hdrop rfl
      rw [(List.cons.inj hd).1] at hm
      rw [hlast' t c hm] at hq
      cases hq
  · intro hnot
    have hq : ∀ c, p c = false →
        (∃ pre post, s.toList = pre ++ c :: post ∧
          ((∀ x ∈ pre, p x = true) ∨ ∀ x ∈ post, p x = true)) → q c = false := by
      rintro c hp ⟨pre, post, hsplit, hedge⟩
      by_contra hne
      exact hnot ⟨pre, c, post, hsplit, hp, by simpa using hne, hedge⟩
    have htrim := trim_eq_of_append hs (fun c hc => hpq c (ha c hc)) (fun c hc => hpq c (hb c hc))
      (fun c t hm => hq c (hhead c t hm) ⟨a, t ++ b, by rw [hs, hm]; simp, .inl ha⟩)
      (fun t c hm => hq c (hlast t c hm) ⟨a ++ t, b, by rw [hs, hm]; simp, .inr hb⟩)
    rw [htrim, String.ofList_toList]

/-! ## Joined pieces -/

/-- Every piece but the first has the separator in front. -/
theorem intercalate_cons {α : Type*} (sep piece : List α) (pieces : List (List α)) :
    sep.intercalate (piece :: pieces) = piece ++ pieces.flatMap fun p => sep ++ p := by
  induction pieces generalizing piece with
  | nil => simp
  | cons p ps ih =>
      rw [List.intercalate_cons_cons, ih, List.flatMap_cons, List.append_assoc, List.append_assoc]

theorem mem_intercalate {α : Type*} {sep : List α} {pieces : List (List α)} {a : α}
    (h : a ∈ sep.intercalate pieces) : a ∈ sep ∨ ∃ piece ∈ pieces, a ∈ piece := by
  cases pieces with
  | nil => cases h
  | cons piece pieces =>
      rw [intercalate_cons, List.mem_append, List.mem_flatMap] at h
      rcases h with h | ⟨p, hp, h⟩
      · exact Or.inr ⟨piece, List.mem_cons_self, h⟩
      · rcases List.mem_append.mp h with h | h
        · exact Or.inl h
        · exact Or.inr ⟨p, List.mem_cons_of_mem _ hp, h⟩

/-- The separator shows where the text in front of it ends. -/
theorem append_cons_inj {α : Type*} {sep : α} {w w' r r' : List α} (hw : sep ∉ w) (hw' : sep ∉ w')
    (h : w ++ sep :: r = w' ++ sep :: r') : w = w' ∧ r = r' := by
  rcases List.append_eq_append_iff.mp h with ⟨v, rfl, hr⟩ | ⟨v, rfl, hr⟩
  · cases v with
    | nil => exact ⟨(List.append_nil w).symm, (List.cons.inj hr).2⟩
    | cons c v =>
        obtain ⟨rfl, -⟩ := List.cons.inj hr
        exact absurd (List.mem_append_right w List.mem_cons_self) hw'
  · cases v with
    | nil => exact ⟨List.append_nil w', (List.cons.inj hr).2.symm⟩
    | cons c v =>
        obtain ⟨rfl, -⟩ := List.cons.inj hr
        exact absurd (List.mem_append_right w' List.mem_cons_self) hw

/-- **Joining is unambiguous** for pieces without the separator, none of them empty. -/
theorem intercalate_inj {α : Type*} [DecidableEq α] {sep : α} {ps qs : List (List α)}
    (hps : ∀ p ∈ ps, p ≠ [] ∧ sep ∉ p) (hqs : ∀ q ∈ qs, q ≠ [] ∧ sep ∉ q)
    (h : [sep].intercalate ps = [sep].intercalate qs) : ps = qs := by
  have hne : ∀ {l : List (List α)}, (∀ p ∈ l, p ≠ [] ∧ sep ∉ p) → [sep].intercalate l = [] →
      l = [] := by
    intro l hl hnil
    cases l with
    | nil => rfl
    | cons p l =>
        rw [intercalate_cons, List.append_eq_nil_iff] at hnil
        exact absurd hnil.1 (hl p List.mem_cons_self).1
  by_cases hp : ps = []
  · rw [hp] at h
    rw [hp, hne hqs h.symm]
  · by_cases hq : qs = []
    · rw [hq] at h
      exact absurd (hne hps h) hp
    · rw [← List.splitOn_intercalate sep (fun p hmem => (hps p hmem).2) hp, h,
        List.splitOn_intercalate sep (fun q hmem => (hqs q hmem).2) hq]

/-! ## Lenient UTF-8 -/

def replacementChar : Char := '\ufffd'

/-- Decode from byte `i` on, at most `n` characters. -/
def runesFrom (b : ByteArray) : ℕ → ℕ → List Char
  | 0, _ => []
  | n + 1, i =>
      if i < b.size then
        match b.utf8DecodeChar? i with
        | some c => c :: runesFrom b n (i + c.utf8Size)
        | none => replacementChar :: runesFrom b n (i + 1)
      else []

/-- Every character takes a byte at least, so `b.size` of them are all. -/
def runes (b : ByteArray) : List Char := runesFrom b b.size 0

theorem runesFrom_encode (cs : List Char) : ∀ (pre : ByteArray) (n : ℕ), cs.length ≤ n →
    runesFrom (pre ++ cs.utf8Encode) n pre.size = cs := by
  induction cs with
  | nil =>
      intro pre n _
      cases n <;> simp [runesFrom]
  | cons c cs ih =>
      rintro pre (_ | n) hn
      · simp at hn
      · have hsize : pre.size < (pre ++ (c :: cs).utf8Encode).size := by
          have hc := c.utf8Size_pos
          rw [List.utf8Encode_cons, List.utf8Encode_singleton]
          simp only [ByteArray.size_append, List.size_toByteArray, String.length_utf8EncodeChar]
          omega
        have hdecode : (pre ++ (c :: cs).utf8Encode).utf8DecodeChar? pre.size = some c := by
          rw [ByteArray.utf8DecodeChar?_eq_utf8DecodeChar?_extract,
            ByteArray.extract_append_eq_right rfl ByteArray.size_append,
            List.utf8Encode_cons, List.utf8Encode_singleton]
          exact ByteArray.utf8DecodeChar?_utf8EncodeChar_append
        have hrest := ih (pre ++ [c].utf8Encode) n (by simpa using hn)
        rw [runesFrom, if_pos hsize, hdecode]
        simp only [List.utf8Encode_singleton, ByteArray.size_append, List.size_toByteArray,
          String.length_utf8EncodeChar] at hrest
        rw [List.utf8Encode_cons, List.utf8Encode_singleton, ← ByteArray.append_assoc]
        exact congrArg (c :: ·) hrest

theorem length_le_utf8Encode (cs : List Char) : cs.length ≤ cs.utf8Encode.size := by
  induction cs with
  | nil => simp
  | cons c cs ih =>
      have hc := c.utf8Size_pos
      rw [List.utf8Encode_cons, List.utf8Encode_singleton]
      simp only [ByteArray.size_append, List.size_toByteArray, String.length_utf8EncodeChar,
        List.length_cons]
      omega

/-- **Well-formed text is decoded as it is.** -/
theorem runes_toUTF8 (s : String) : runes s.toUTF8 = s.toList := by
  have h := runesFrom_encode s.toList ByteArray.empty s.toList.utf8Encode.size
    (length_le_utf8Encode s.toList)
  rw [ByteArray.empty_append, String.utf8Encode_toList] at h
  exact h

end KernelQ.Foundation
