import KernelQ.Foundation.Json

/-!
# Two encoders

The styles of `json.dumps` (ASCII only, a blank behind `,` and `:`) and of Go's
`encoding/json` (compact, `<`, `>`, `&` and the two line separators escaped).
-/

namespace KernelQ.Foundation

/-- The characters both encoders give a two-character escape. -/
def shortEscaped : List Char := ['"', '\\', '\n', '\r', '\t', '\x0c', '\x08']

theorem fits_short : ∀ c ∈ shortEscaped, CharForm.short.Fits c := by
  simp only [CharForm.Fits]
  exact List.all_iff_forall_prop.mp (by decide)

theorem fits_hex_or_pair (c : Char) :
    (if c.toNat < 0x10000 then CharForm.hex else CharForm.pair).Fits c := by
  split
  · assumption
  · exact not_lt.mp ‹_›

def pythonForm (c : Char) : CharForm :=
  if c ∈ shortEscaped then .short
  else if 0x20 ≤ c.toNat ∧ c.toNat ≤ 0x7e then .raw
  else if c.toNat < 0x10000 then .hex else .pair

def goForm (c : Char) : CharForm :=
  if c ∈ shortEscaped then .short
  else if c.toNat < 0x20 ∨ c ∈ ['<', '>', '&', '\u2028', '\u2029'] then .hex
  else .raw

private theorem fits_raw {c : Char} (hshort : c ∉ shortEscaped) (hc : 0x20 ≤ c.toNat) :
    CharForm.raw.Fits c := by
  refine ⟨?_, ?_, hc⟩ <;>
    · rintro rfl
      exact hshort (by decide)

theorem fits_pythonForm (c : Char) : (pythonForm c).Fits c := by
  unfold pythonForm
  split
  · exact fits_short c ‹_›
  · split
    · rename_i hshort hc
      exact fits_raw hshort hc.1
    · exact fits_hex_or_pair c

theorem fits_goForm (c : Char) : (goForm c).Fits c := by
  unfold goForm
  split
  · exact fits_short c ‹_›
  · split
    · rename_i hc
      show c.toNat < 0x10000
      rcases hc with hc | hc
      · omega
      · have hsmall : ∀ d ∈ ['<', '>', '&', '\u2028', '\u2029'], d.toNat < 0x10000 :=
          List.all_iff_forall_prop.mp (by decide)
        exact hsmall c hc
    · rename_i hshort hc
      exact fits_raw hshort (not_lt.mp fun h => hc (Or.inl h))

/-- `json.dumps` with its defaults. -/
def Style.python : Style where
  comma := [' ']
  colon := [' ']
  form := pythonForm
  comma_space := List.all_iff_forall_prop.mp (by decide)
  colon_space := List.all_iff_forall_prop.mp (by decide)
  form_fits := fits_pythonForm

/-- `json.Marshal`. -/
def Style.go : Style where
  comma := []
  colon := []
  form := goForm
  comma_space := List.all_iff_forall_prop.mp (by decide)
  colon_space := List.all_iff_forall_prop.mp (by decide)
  form_fits := fits_goForm

end KernelQ.Foundation
