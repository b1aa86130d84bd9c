import KernelQ.Foundation.Json
import KernelQ.Foundation.Text

/-!
# Decoding into a struct

Go's `encoding/json`, from the bytes of an object into a struct. A member goes
to the field with its name, else to one with its name up to case, else nowhere;
members are stored in order, so the last of several wins, and `null` leaves a
string or an integer alone. The decoder goes on behind a value of the wrong type
only to report that first mismatch in the end: here it stops at it.
-/

namespace KernelQ.Foundation

inductive UnmarshalError
  | malformed
  | mismatch (value : String) (field : Option String) (type : String)
  deriving DecidableEq

/-- How a mismatch names the value it met. -/
def Json.kind : Json → String
  | .null => "null"
  | .bool _ => "bool"
  | .int _ | .dec _ => "number"
  | .str _ => "string"
  | .arr _ => "array"
  | .obj _ => "object"

/-- Case folding, on the letters that fold to an ASCII one. -/
def foldRune (c : Char) : Char :=
  if 'a' ≤ c ∧ c ≤ 'z' then c.toUpper
  else if c = 'ſ' then 'S'
  else if c = '\u212a' then 'K'
  else c

def foldName (s : String) : List Char := s.toList.map foldRune

/-- A field of a struct: its JSON name, and how a value is stored in it. -/
structure StructField (σ : Type) where
  name : String
  store : σ → Json → Except UnmarshalError σ

def findField {σ : Type} (fields : List (StructField σ)) (key : String) :
    Option (StructField σ) :=
  (fields.find? fun f => decide (f.name = key)).or
    (fields.find? fun f => decide (foldName f.name = foldName key))

def storeMembers {σ : Type} (fields : List (StructField σ)) :
    σ → List (String × Json) → Except UnmarshalError σ
  | s, [] => .ok s
  | s, (key, v) :: members =>
      match findField fields key with
      | none => storeMembers fields s members
      | some f =>
          match f.store s v with
          | .ok s' => storeMembers fields s' members
          | .error e => .error e

/-- `json.Unmarshal` into a struct of the given type. -/
def unmarshal {σ : Type} (fields : List (StructField σ)) (type : String) (zero : σ)
    (data : ByteArray) : Except UnmarshalError σ :=
  match Json.parse (some replacementChar) (runes data) with
  | none => .error .malformed
  | some .null => .ok zero
  | some (.obj members) => storeMembers fields zero members
  | some v => .error (.mismatch v.kind none type)

/-! ## The types of fields -/

def storeString (field : String) (old : String) : Json → Except UnmarshalError String
  | .null => .ok old
  | .str s => .ok s
  | v => .error (.mismatch v.kind (some field) "string")

/-- `int` has 64 bits; a literal with a fraction or an exponent is no integer. -/
def storeInt (field : String) (old : ℤ) : Json → Except UnmarshalError ℤ
  | .null => .ok old
  | .int i =>
      if -2 ^ 63 ≤ i ∧ i < 2 ^ 63 then .ok i
      else .error (.mismatch ("number " ++ String.ofList (intText i)) (some field) "int")
  | .dec d => .error (.mismatch ("number " ++ String.ofList d.text) (some field) "int")
  | v => .error (.mismatch v.kind (some field) "int")

/-- The entries of a `map[string]string`, one per key. -/
abbrev StringMap := List (String × String)

def setEntry (m : StringMap) (key value : String) : StringMap :=
  (m.filter fun e => decide (e.1 ≠ key)) ++ [(key, value)]

/-- A `null` entry is stored as the empty string. -/
def storeEntries (field : String) : StringMap → List (String × Json) →
    Except UnmarshalError StringMap
  | m, [] => .ok m
  | m, (key, v) :: members =>
      match storeString field "" v with
      | .ok s => storeEntries field (setEntry m key s) members
      | .error e => .error e

/-- An object adds to the map that is there; `null` makes it `nil`. -/
def storeMap (field : String) (old : Option StringMap) : Json →
    Except UnmarshalError (Option StringMap)
  | .null => .ok none
  | .obj members => (storeEntries field (old.getD []) members).map some
  | v => .error (.mismatch v.kind (some field) "map[string]string")

namespace StructField

variable {σ : Type} (name : String)

def string (get : σ → String) (set : σ → String → σ) : StructField σ :=
  ⟨name, fun s v => (storeString name (get s) v).map (set s)⟩

def int (get : σ → ℤ) (set : σ → ℤ → σ) : StructField σ :=
  ⟨name, fun s v => (storeInt name (get s) v).map (set s)⟩

def stringMap (get : σ → Option StringMap) (set : σ → Option StringMap → σ) : StructField σ :=
  ⟨name, fun s v => (storeMap name (get s) v).map (set s)⟩

theorem store_string (get : σ → String) (set : σ → String → σ) (s : σ) (x : String) :
    (string name get set).store s (.str x) = .ok (set s x) := rfl

theorem store_int (get : σ → ℤ) (set : σ → ℤ → σ) (s : σ) {i : ℤ} (hlow : -2 ^ 63 ≤ i)
    (hhigh : i < 2 ^ 63) : (int name get set).store s (.int i) = .ok (set s i) := by
  simp only [int, storeInt, if_pos (And.intro hlow hhigh), Except.map]

theorem store_stringMap (get : σ → Option StringMap) (set : σ → Option StringMap → σ) (s : σ)
    (members : List (String × Json)) : (stringMap name get set).store s (.obj members) =
      (storeEntries name ((get s).getD []) members).map fun m => set s (some m) := by
  simp only [stringMap, storeMap]
  cases storeEntries name ((get s).getD []) members <;> rfl

end StructField

/-! ## What is decoded -/

/-- Whoever wrote the object, and however. -/
theorem unmarshal_render {σ : Type} (fields : List (StructField σ)) (type : String) (zero : σ)
    (S : Style) (members : List (String × Json)) :
    unmarshal fields type zero (String.ofList ((Json.obj members).render S)).toUTF8 =
      storeMembers fields zero members := by
  rw [unmarshal, runes_toUTF8, String.toList_ofList, Json.parse_render]

theorem storeMembers_cons {σ : Type} {fields : List (StructField σ)} {key : String}
    {f : StructField σ} {s s' : σ} {v : Json} (hf : findField fields key = some f)
    (hs : f.store s v = .ok s') (members : List (String × Json)) :
    storeMembers fields s ((key, v) :: members) = storeMembers fields s' members := by
  rw [storeMembers, hf]
  simp only [hs]

theorem storeString_eq_ok_iff {field old s : String} {v : Json} :
    storeString field old v = .ok s ↔ v = .str s ∨ v = .null ∧ s = old := by
  cases v <;> simp [storeString, eq_comm]

theorem setEntry_of_not_mem {m : StringMap} {key : String} (hkey : key ∉ m.map Prod.fst)
    (value : String) : setEntry m key value = m ++ [(key, value)] := by
  rw [setEntry, List.filter_eq_self.mpr]
  intro e he
  exact decide_eq_true fun h => hkey (h ▸ List.mem_map_of_mem he)

/-- The string a member of an object is stored as. -/
def entryOf : String × Json → Option (String × String)
  | (key, .str s) => some (key, s)
  | (key, .null) => some (key, "")
  | _ => none

/-- **An object is a map of strings** exactly when its values are strings and
`null`s; members with different keys are stored as they come. -/
theorem storeEntries_eq_ok_iff {field : String} {members : List (String × Json)} :
    ∀ {m m' : StringMap}, ((m.map Prod.fst) ++ members.map Prod.fst).Nodup →
      (storeEntries field m members = .ok m' ↔
        ∃ entries, members.map entryOf = entries.map some ∧ m' = m ++ entries) := by
  induction members with
  | nil =>
      intro m m' _
      constructor
      · intro h
        cases h
        exact ⟨[], rfl, by simp⟩
      · rintro ⟨_ | ⟨e, entries⟩, h, rfl⟩
        · rw [List.append_nil]
          rfl
        · cases h
  | cons member members ih =>
      obtain ⟨key, v⟩ := member
      intro m m' hnodup
      have hkey : key ∉ m.map Prod.fst := fun h =>
        (List.nodup_append.mp hnodup).2.2 key h key List.mem_cons_self rfl
      have hnext : ∀ s, (((setEntry m key s).map Prod.fst) ++ members.map Prod.fst).Nodup := by
        intro s
        rw [setEntry_of_not_mem hkey, List.map_append, List.append_assoc]
        exact hnodup
      cases hs : storeString field "" v with
      | error e =>
          have hnone : entryOf (key, v) = none := by
            cases v <;> first | rfl | cases hs
          simp only [storeEntries, hs, reduceCtorEq, List.map_cons, hnone, false_iff]
          rintro ⟨_ | ⟨e, entries⟩, h, -⟩
          · cases h
          · cases (List.cons.inj h).1
      | ok s =>
          have hsome : entryOf (key, v) = some (key, s) := by
            rcases storeString_eq_ok_iff.mp hs with rfl | ⟨rfl, rfl⟩ <;> rfl
          simp only [storeEntries, hs]
          -- the key is new, so the entry goes to the end of the map
          rw [ih (hnext s), setEntry_of_not_mem hkey]
          constructor
          · rintro ⟨entries, h, rfl⟩
            exact ⟨(key, s) :: entries, by rw [List.map_cons, hsome, h]; rfl, by simp⟩
          · rintro ⟨_ | ⟨e, entries⟩, h, rfl⟩
            · cases h
            · rw [List.map_cons, hsome, List.map_cons] at h
              obtain ⟨he, hrest⟩ := List.cons.inj h
              cases he
              exact ⟨entries, hrest, by simp⟩

end KernelQ.Foundation
