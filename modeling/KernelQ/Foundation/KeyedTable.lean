import Mathlib.Data.List.Nodup

/-!
# Tables with a primary key

A table is a list of rows no two of which have the same key; the list order is
the (irrelevant) heap order. `update p u` is `UPDATE … SET u WHERE p` and
`affected p u` its `RETURNING`. Everything later proofs need to know about a
statement is what it does to the row of one key: `find?_update` and
`find?_insert`.
-/

namespace KernelQ.Foundation

/-- Rows of type `ρ` identified by `key`. -/
structure KeyedTable {ρ κ : Type*} (key : ρ → κ) where
  rows : List ρ
  nodup : (rows.map key).Nodup

/-- A `SET` clause: it may change any column but the key. -/
structure SetClause {ρ κ : Type*} (key : ρ → κ) where
  set : ρ → ρ
  key_set : ∀ r, key (set r) = key r

namespace KeyedTable

variable {ρ κ : Type*} {key : ρ → κ}

def empty : KeyedTable key := ⟨[], List.nodup_nil⟩

/-- Two rows with one key are the same row. -/
theorem eq_of_key_eq (T : KeyedTable key) {r r' : ρ} (hr : r ∈ T.rows) (hr' : r' ∈ T.rows)
    (h : key r = key r') : r = r' :=
  List.inj_on_of_nodup_map T.nodup hr hr' h

theorem nodup_rows (T : KeyedTable key) : T.rows.Nodup := T.nodup.of_map _

theorem nodup_map_key (T : KeyedTable key) {sel : List ρ} (hnodup : sel.Nodup)
    (hsel : ∀ r ∈ sel, r ∈ T.rows) : (sel.map key).Nodup :=
  hnodup.map_on fun _ hr _ hr' h => T.eq_of_key_eq (hsel _ hr) (hsel _ hr') h

/-! ## Statements -/

/-- `UPDATE … SET u WHERE p`. -/
def update (T : KeyedTable key) (p : ρ → Bool) (u : SetClause key) : KeyedTable key where
  rows := T.rows.map fun r => if p r then u.set r else r
  nodup := by
    have hkeys : (T.rows.map fun r => if p r then u.set r else r).map key = T.rows.map key := by
      rw [List.map_map]
      apply List.map_congr_left
      intro r _
      by_cases h : p r = true
      · simp [h, u.key_set]
      · simp [h]
    rw [hkeys]
    exact T.nodup

/-- The rows `UPDATE … SET u WHERE p` returns: the affected rows, as updated. -/
def affected (T : KeyedTable key) (p : ρ → Bool) (u : SetClause key) : List ρ :=
  (T.rows.filter p).map u.set

/-! ## Rows and keys -/

/-- `WHERE key IN (SELECT key …)`: by key is by row. -/
theorem key_mem_map_iff (T : KeyedTable key) {sel : List ρ} (hsel : ∀ r ∈ sel, r ∈ T.rows) {r : ρ}
    (hr : r ∈ T.rows) : key r ∈ sel.map key ↔ r ∈ sel := by
  constructor
  · intro h
    obtain ⟨r', hr', he⟩ := List.mem_map.mp h
    rwa [← T.eq_of_key_eq (hsel r' hr') hr he]
  · exact List.mem_map_of_mem

/-! ## Statements by key -/

variable [DecidableEq κ]

/-- `SELECT … WHERE key = k`. -/
def find? (T : KeyedTable key) (k : κ) : Option ρ :=
  T.rows.find? fun r => decide (key r = k)

/-- `INSERT`; `none` is the unique violation. -/
def insert? (T : KeyedTable key) (r : ρ) : Option (KeyedTable key) :=
  if h : key r ∈ T.rows.map key then none
  else some
    { rows := T.rows ++ [r]
      nodup := by
        rw [List.map_append, List.nodup_append]
        refine ⟨T.nodup, by simp, ?_⟩
        rintro k hk k' hk' rfl
        exact h ((List.mem_singleton.mp hk') ▸ hk) }

/-- `DELETE … WHERE key = k`. -/
def delete (T : KeyedTable key) (k : κ) : KeyedTable key where
  rows := T.rows.filter fun r => decide (key r ≠ k)
  nodup := T.nodup.sublist (List.filter_sublist.map key)

/-! ## What a statement does to the row of one key -/

theorem find?_eq_some_iff {T : KeyedTable key} {k : κ} {r : ρ} :
    T.find? k = some r ↔ r ∈ T.rows ∧ key r = k := by
  constructor
  · intro h
    exact ⟨List.mem_of_find?_eq_some h, by simpa using List.find?_some h⟩
  · rintro ⟨hr, hk⟩
    have hsome : (T.find? k).isSome := by
      unfold find?
      rw [List.find?_isSome]
      exact ⟨r, hr, by simpa using hk⟩
    obtain ⟨r', hr'⟩ := Option.isSome_iff_exists.mp hsome
    have hk' : key r' = k := by simpa using List.find?_some hr'
    rw [hr', T.eq_of_key_eq (List.mem_of_find?_eq_some hr') hr (hk'.trans hk.symm)]

theorem find?_of_mem {T : KeyedTable key} {r : ρ} (hr : r ∈ T.rows) :
    T.find? (key r) = some r :=
  find?_eq_some_iff.mpr ⟨hr, rfl⟩

theorem find?_eq_none_iff {T : KeyedTable key} {k : κ} :
    T.find? k = none ↔ ∀ r ∈ T.rows, key r ≠ k := by
  simp [find?]

theorem key_of_find? {T : KeyedTable key} {k : κ} {r : ρ} (h : T.find? k = some r) :
    key r = k :=
  (find?_eq_some_iff.mp h).2

/-- **An `UPDATE`, seen from one key**: the row is there as before, rewritten
if the `WHERE` clause holds of it. -/
theorem find?_update (T : KeyedTable key) (p : ρ → Bool) (u : SetClause key) (k : κ) :
    (T.update p u).find? k = (T.find? k).map fun r => if p r then u.set r else r := by
  have hkey : ∀ r, key (if p r = true then u.set r else r) = key r := by
    intro r
    by_cases h : p r = true
    · rw [if_pos h, u.key_set]
    · rw [if_neg h]
  simp only [find?, update, List.find?_map]
  congr 1
  refine congrArg (fun q => T.rows.find? q) (funext fun r => ?_)
  simp only [Function.comp, hkey]

/-- An `UPDATE` of the row with key `j`, guarded by `q`. -/
theorem find?_update_key (T : KeyedTable key) (j : κ) (q : ρ → Bool) (u : SetClause key) (k : κ) :
    (T.update (fun r => decide (key r = j) && q r) u).find? k =
      if k = j then (T.find? k).map fun r => if q r then u.set r else r else T.find? k := by
  rw [find?_update]
  cases hk : T.find? k with
  | none => simp
  | some r =>
      have hr : key r = k := key_of_find? hk
      by_cases h : k = j <;> simp [hr, h]

/-- The one row such an `UPDATE` can return. -/
theorem head?_affected_key (T : KeyedTable key) (j : κ) (q : ρ → Bool) (u : SetClause key) :
    (T.affected (fun r => decide (key r = j) && q r) u).head? =
      ((T.find? j).filter q).map u.set := by
  rw [affected, List.head?_map, List.head?_filter]
  congr 1
  cases hj : T.find? j with
  | none =>
      rw [find?_eq_none_iff] at hj
      simp only [Option.filter_none, List.find?_eq_none, Bool.and_eq_true, decide_eq_true_eq]
      rintro r hr ⟨hk, -⟩
      exact hj r hr hk
  | some r =>
      obtain ⟨hr, hk⟩ := find?_eq_some_iff.mp hj
      have hone : ∀ r' ∈ T.rows, key r' = j → r' = r := fun r' hr' hk' =>
        T.eq_of_key_eq hr' hr (hk'.trans hk.symm)
      by_cases hq : q r = true
      · rw [Option.filter_some_pos hq]
        cases hfind : T.rows.find? (fun r => decide (key r = j) && q r) with
        | none =>
            have h := List.find?_eq_none.mp hfind r hr
            simp [hk, hq] at h
        | some r' =>
            have h := List.find?_some hfind
            simp only [Bool.and_eq_true, decide_eq_true_eq] at h
            rw [hone r' (List.mem_of_find?_eq_some hfind) h.1]
      · rw [Option.filter_some_neg (by simpa using hq), List.find?_eq_none]
        intro r' hr' h
        simp only [Bool.and_eq_true, decide_eq_true_eq] at h
        exact hq (hone r' hr' h.1 ▸ h.2)

/-- `UPDATE … WHERE key IN (SELECT key …)` returns the selected rows, in some
order. -/
theorem affected_perm_of_keys (T : KeyedTable key) {sel : List ρ} (hsel : ∀ r ∈ sel, r ∈ T.rows)
    (hnodup : sel.Nodup) (u : SetClause key) :
    (T.affected (fun r => decide (key r ∈ sel.map key)) u).Perm (sel.map u.set) := by
  refine List.Perm.map u.set ((List.perm_ext_iff_of_nodup (T.nodup_rows.filter _) hnodup).mpr ?_)
  intro r
  rw [List.mem_filter, decide_eq_true_eq]
  constructor
  · rintro ⟨hr, hkey⟩
    exact (T.key_mem_map_iff hsel hr).mp hkey
  · intro hr
    exact ⟨hsel r hr, List.mem_map_of_mem hr⟩

theorem find?_insert {T T' : KeyedTable key} {r : ρ} (h : T.insert? r = some T') (k : κ) :
    T'.find? k = if key r = k then some r else T.find? k := by
  unfold insert? at h
  split at h
  · cases h
  · rename_i hnew
    cases h
    simp only [find?, List.find?_append]
    by_cases hk : key r = k
    · subst hk
      have hnone : T.rows.find? (fun r' => decide (key r' = key r)) = none := by
        simp only [List.find?_eq_none, decide_eq_true_eq]
        intro r' hr' he
        exact hnew (List.mem_map.mpr ⟨r', hr', he⟩)
      simp [hnone]
    · simp [hk]

theorem insert?_eq_none_iff {T : KeyedTable key} {r : ρ} :
    T.insert? r = none ↔ ∃ r', T.find? (key r) = some r' := by
  unfold insert?
  split
  · rename_i h
    obtain ⟨r', hr', he⟩ := List.mem_map.mp h
    simp only [true_iff]
    exact ⟨r', find?_eq_some_iff.mpr ⟨hr', he⟩⟩
  · rename_i h
    simp only [reduceCtorEq, false_iff]
    rintro ⟨r', hr'⟩
    obtain ⟨hm, hk⟩ := find?_eq_some_iff.mp hr'
    exact h (List.mem_map.mpr ⟨r', hm, hk⟩)

theorem find?_eq_none_of_insert {T T' : KeyedTable key} {r : ρ} (h : T.insert? r = some T') :
    T.find? (key r) = none := by
  cases hfind : T.find? (key r) with
  | none => rfl
  | some r' =>
      rw [insert?_eq_none_iff.mpr ⟨r', hfind⟩] at h
      cases h

theorem find?_delete (T : KeyedTable key) (k k' : κ) :
    (T.delete k).find? k' = if k = k' then none else T.find? k' := by
  by_cases h : k = k'
  · subst h
    rw [if_pos rfl, find?_eq_none_iff]
    intro r hr
    simpa using (List.mem_filter.mp hr).2
  · rw [if_neg h]
    simp only [find?, delete, List.find?_filter]
    refine congrArg (fun q => T.rows.find? q) (funext fun r => ?_)
    by_cases hk : key r = k'
    · subst hk
      simp [Ne.symm h]
    · simp [hk]

end KeyedTable

end KernelQ.Foundation
