/-
  KEYED TABLES: what a database table with a primary key is, as a value.

  A table is a list of rows whose keys are pairwise distinct; the distinctness is a FIELD, so a
  table with two rows of one key cannot be built and "exactly one row" is a fact about every
  table rather than an invariant to maintain.  There are the two ways a table changes, both of
  them as SQL has them: `insert` appends a row whose key is not taken yet, and `modify` rewrites
  rows in place without touching their keys (an UPDATE that never sets the key column), of which
  `replace` is the case of one row.

  Everything else is said through the lookup `find`: `find_insert`, `find_replace` and `mem_iff`
  are the equations the clients compute with.
-/
import Mathlib.Data.List.Nodup

namespace Lib

open List

/-- A table of rows `ρ` with primary key `key : ρ → κ`. -/
structure Table {κ ρ : Type} (key : ρ → κ) where
  /-- The rows, in insertion order. -/
  rows : List ρ
  /-- No key occurs twice. -/
  nodup : (rows.map key).Nodup

namespace Table

variable {κ ρ : Type} {key : ρ → κ}

/-- Two tables with the same rows are the same table. -/
@[ext] theorem ext {t t' : Table key} (h : t.rows = t'.rows) : t = t' := by
  cases t
  cases t'
  cases h
  rfl

/-- The empty table. -/
def empty : Table key := ⟨[], nodup_nil⟩

/-- `k` is the key of some row. -/
def Has (t : Table key) (k : κ) : Prop := k ∈ t.rows.map key

section Lookup

variable [DecidableEq κ]

/-- The row with key `k`, if there is one. -/
def find (t : Table key) (k : κ) : Option ρ := t.rows.find? fun r => key r = k

instance (t : Table key) (k : κ) : Decidable (t.Has k) :=
  inferInstanceAs (Decidable (k ∈ t.rows.map key))

variable {t : Table key} {k : κ} {r : ρ}

theorem find_key (h : t.find k = some r) : key r = k := by
  have := find?_some h
  simpa using this

theorem find_mem (h : t.find k = some r) : r ∈ t.rows :=
  mem_of_find?_eq_some h

theorem find_none : t.find k = none ↔ ¬ t.Has k := by
  unfold find Has
  rw [find?_eq_none]
  constructor
  · rintro h hk
    obtain ⟨r, hr, hrk⟩ := mem_map.mp hk
    exact h r hr (by simp [hrk])
  · intro h r hr hrk
    exact h (mem_map.mpr ⟨r, hr, by simpa using hrk⟩)

theorem has_of_find (h : t.find k = some r) : t.Has k :=
  mem_map.mpr ⟨r, find_mem h, find_key h⟩

theorem find_of_has (h : t.Has k) : ∃ r, t.find k = some r := by
  cases hf : t.find k with
  | some r => exact ⟨r, rfl⟩
  | none => exact absurd h (find_none.mp hf)

/-- The keys being distinct, membership and lookup say the same. -/
theorem mem_iff : r ∈ t.rows ↔ t.find (key r) = some r := by
  constructor
  · intro hr
    obtain ⟨r', hr'⟩ := find_of_has (mem_map.mpr ⟨r, hr, rfl⟩ : t.Has (key r))
    have hkey : key r' = key r := find_key hr'
    have : r' = r := inj_on_of_nodup_map t.nodup (find_mem hr') hr hkey
    rw [hr', this]
  · exact find_mem

end Lookup

/-! ## Inserting -/

/-- Append a row whose key is free. -/
def insert (t : Table key) (r : ρ) (h : ¬ t.Has (key r)) : Table key where
  rows := t.rows ++ [r]
  nodup := by
    rw [map_append, nodup_append]
    refine ⟨t.nodup, by simp, ?_⟩
    intro a ha b hb
    have hb' : b = key r := by simpa using hb
    rintro rfl
    exact h (hb' ▸ ha)

theorem find_insert [DecidableEq κ] (t : Table key) (r : ρ) (h : ¬ t.Has (key r)) (k : κ) :
    (t.insert r h).find k = if k = key r then some r else t.find k := by
  show (t.rows ++ [r]).find? _ = _
  rw [find?_append]
  by_cases hk : k = key r
  · have hnone : t.find k = none := find_none.mpr (hk ▸ h)
    rw [if_pos hk, show t.rows.find? (fun r => key r = k) = none from hnone]
    simp [hk]
  · rw [if_neg hk]
    have hr : [r].find? (fun r => decide (key r = k)) = none := by
      simpa using fun h' : key r = k => hk h'.symm
    rw [hr, Option.or_none]
    rfl

theorem has_insert (t : Table key) (r : ρ) (h : ¬ t.Has (key r)) (k : κ) :
    (t.insert r h).Has k ↔ t.Has k ∨ k = key r := by
  show k ∈ (t.rows ++ [r]).map key ↔ _
  rw [map_append, mem_append]
  simp [Has]

/-! ## Rewriting in place -/

/-- Rewrite every row with `f`, which keeps the key. -/
def modify (t : Table key) (f : ρ → ρ) (hf : ∀ r, key (f r) = key r) : Table key where
  rows := t.rows.map f
  nodup := by
    have : (t.rows.map f).map key = t.rows.map key := by
      rw [map_map]
      exact map_congr_left fun r _ => hf r
    rw [this]
    exact t.nodup

theorem find_modify [DecidableEq κ] (t : Table key) (f : ρ → ρ) (hf : ∀ r, key (f r) = key r) (k : κ) :
    (t.modify f hf).find k = (t.find k).map f := by
  show (t.rows.map f).find? _ = _
  rw [find?_map]
  congr 2
  funext r
  simp [hf]

theorem has_modify (t : Table key) (f : ρ → ρ) (hf : ∀ r, key (f r) = key r) (k : κ) :
    (t.modify f hf).Has k ↔ t.Has k := by
  show k ∈ (t.rows.map f).map key ↔ k ∈ t.rows.map key
  rw [map_map, show key ∘ f = key from funext hf]

/-- Put `row` in the place of the row with its key, if there is one. -/
def replace [DecidableEq κ] (t : Table key) (row : ρ) : Table key :=
  t.modify (fun r => if key r = key row then row else r) fun r => by
    by_cases h : key r = key row
    · rw [if_pos h, h]
    · rw [if_neg h]

theorem find_replace [DecidableEq κ] (t : Table key) (row : ρ) (k : κ) :
    (t.replace row).find k = if k = key row then (t.find k).map fun _ => row else t.find k := by
  unfold replace
  rw [find_modify]
  cases hf : t.find k with
  | none => simp
  | some r =>
    have hk : key r = k := find_key hf
    subst hk
    by_cases h : key r = key row
    · simp [h]
    · simp [h]

theorem has_replace [DecidableEq κ] (t : Table key) (row : ρ) (k : κ) :
    (t.replace row).Has k ↔ t.Has k :=
  has_modify ..

end Table

end Lib
