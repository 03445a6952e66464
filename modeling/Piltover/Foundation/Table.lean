/- source: none (library)
   digest: Tables whose rows have distinct keys: lookup, update, insertion and removal. -/

import Mathlib.Data.List.Nodup
import Mathlib.Data.List.Perm.Basic
import Mathlib.Tactic.Common

set_option autoImplicit false

namespace Piltover.Foundation

universe u v w

/-- Rows in the order of their insertion, no two of them with the same key. -/
structure Table {ρ : Type u} {κ : Type v} (key : ρ → κ) where
  rows : List ρ
  unique : (rows.map key).Nodup

namespace Table

variable {ρ : Type u} {κ : Type v} {key : ρ → κ}

instance : Membership ρ (Table key) := ⟨fun t r => r ∈ t.rows⟩

theorem mem_def {t : Table key} {r : ρ} : r ∈ t ↔ r ∈ t.rows := Iff.rfl

def empty : Table key := ⟨[], List.nodup_nil⟩

@[simp] theorem notMem_empty (r : ρ) : ¬ r ∈ (empty : Table key) := List.not_mem_nil

theorem eq_of_key_eq {t : Table key} {r s : ρ} (here : r ∈ t) (there : s ∈ t)
    (same : key r = key s) : r = s :=
  List.inj_on_of_nodup_map t.unique here there same

/-- Change the rows for which the check holds; their keys stay. -/
def modify (t : Table key) (check : ρ → Bool) (change : ρ → ρ)
    (keeps : ∀ r, key (change r) = key r) : Table key where
  rows := t.rows.map fun r => if check r then change r else r
  unique := by
    have same : (t.rows.map fun r => if check r then change r else r).map key = t.rows.map key := by
      rw [List.map_map]
      refine List.map_congr_left fun r _ => ?_
      cases chosen : check r <;> simp [chosen, keeps]
    rw [same]
    exact t.unique

theorem mem_modify {t : Table key} {check : ρ → Bool} {change : ρ → ρ}
    {keeps : ∀ r, key (change r) = key r} {r : ρ} :
    r ∈ t.modify check change keeps ↔ ∃ s ∈ t, (if check s then change s else s) = r :=
  List.mem_map

/-- The rows as another table has them, under the same keys. -/
def map {σ : Type w} {key' : σ → κ} (t : Table key) (f : ρ → σ) (keeps : ∀ r, key' (f r) = key r) :
    Table key' where
  rows := t.rows.map f
  unique := by
    rw [List.map_map, show key' ∘ f = key from funext keeps]
    exact t.unique

/-- Keep the rows for which the check fails. -/
def remove (t : Table key) (check : ρ → Bool) : Table key where
  rows := t.rows.filter fun r => !check r
  unique := t.unique.sublist (List.filter_sublist.map key)

@[simp] theorem mem_remove {t : Table key} {check : ρ → Bool} {r : ρ} :
    r ∈ t.remove check ↔ r ∈ t ∧ check r = false := by
  simp [mem_def, remove]

theorem filter_perm {t u : Table key} {check : ρ → Bool}
    (agree : ∀ r, check r = true → (r ∈ t ↔ r ∈ u)) :
    (t.rows.filter check).Perm (u.rows.filter check) := by
  have nodup : ∀ v : Table key, (v.rows.filter check).Nodup := fun v =>
    (List.Nodup.of_map _ v.unique).filter _
  rw [List.perm_ext_iff_of_nodup (nodup t) (nodup u)]
  intro r
  rw [List.mem_filter, List.mem_filter]
  exact and_congr_left fun passes => agree r passes

theorem nodup_filter (t : Table key) (check : ρ → Bool) :
    ((t.rows.filter check).map key).Nodup :=
  t.unique.sublist (List.filter_sublist.map key)

theorem count_modify (check : ρ → Bool) {t : Table key} {which : ρ → Bool} {change : ρ → ρ}
    {keeps : ∀ r, key (change r) = key r} (same : ∀ r ∈ t, check (change r) = check r) :
    ((t.modify which change keeps).rows.filter check).length = (t.rows.filter check).length := by
  rw [modify, List.filter_map, List.length_map]
  congr 1
  refine List.filter_congr fun r here => ?_
  show check (if which r then change r else r) = check r
  split
  · exact same r here
  · rfl

theorem count_modify_lt {check : ρ → Bool} {t : Table key} {which : ρ → Bool} {change : ρ → ρ}
    (keeps : ∀ r, key (change r) = key r) (fewer : ∀ r, check (change r) = true → check r = true)
    {r : ρ} (here : r ∈ t) (chosen : which r = true) (counted : check r = true)
    (uncounted : check (change r) = false) :
    ((t.modify which change keeps).rows.filter check).length < (t.rows.filter check).length := by
  have through : ∀ s, check (if which s then change s else s) = true → check s = true := by
    intro s after
    split at after
    · exact fewer s after
    · exact after
  have inner : (t.modify which change keeps).rows.filter check =
      ((t.rows.filter check).filter fun s => check (if which s then change s else s)).map
        fun s => if which s then change s else s := by
    rw [modify, List.filter_map, List.filter_filter]
    refine congrArg _ (List.filter_congr fun s _ => ?_)
    rw [Bool.eq_iff_iff, Bool.and_eq_true]
    exact ⟨fun after => ⟨after, through s after⟩, fun both => both.1⟩
  rw [inner, List.length_map, List.length_filter_lt_length_iff_exists]
  refine ⟨r, List.mem_filter.mpr ⟨here, counted⟩, ?_⟩
  rw [if_pos chosen, uncounted]
  exact Bool.false_ne_true

theorem any_beq_iff {α : Type v} [BEq α] [LawfulBEq α] {t : Table key} {f : ρ → α} {a : α} :
    (t.rows.any fun r => f r == a) = true ↔ a ∈ t.rows.map f := by
  simp only [List.any_eq_true, beq_iff_eq, List.mem_map]

variable [DecidableEq κ]

/-- The row with the key. -/
def get (t : Table key) (k : κ) : Option ρ := t.rows.find? fun r => key r = k

theorem get_eq_some_iff {t : Table key} {k : κ} {r : ρ} :
    t.get k = some r ↔ r ∈ t ∧ key r = k := by
  constructor
  · intro found
    exact ⟨List.mem_of_find?_eq_some found, by simpa using List.find?_some found⟩
  · rintro ⟨here, rfl⟩
    cases found : t.get (key r) with
    | none =>
      have absent := List.find?_eq_none.mp found r here
      simp at absent
    | some s =>
      have same : key s = key r := by simpa using List.find?_some found
      rw [eq_of_key_eq (List.mem_of_find?_eq_some found) here same]

theorem get_eq_none_iff {t : Table key} {k : κ} : t.get k = none ↔ ∀ r ∈ t, key r ≠ k := by
  simp [get, List.find?_eq_none, mem_def]

theorem get_modify (t : Table key) (check : ρ → Bool) (change : ρ → ρ)
    (keeps : ∀ r, key (change r) = key r) (k : κ) :
    (t.modify check change keeps).get k =
      (t.get k).map fun r => if check r then change r else r := by
  simp only [get, modify, List.find?_map]
  congr 2
  funext r
  cases chosen : check r <;> simp [chosen, keeps]

theorem get_modify_key [BEq κ] [LawfulBEq κ] (t : Table key) (change : ρ → ρ)
    (keeps : ∀ r, key (change r) = key r) (k l : κ) :
    (t.modify (fun r => key r == k) change keeps).get l =
      if k = l then (t.get l).map change else t.get l := by
  rw [get_modify]
  cases found : t.get l with
  | none => split <;> rfl
  | some r =>
    obtain ⟨-, rfl⟩ := get_eq_some_iff.mp found
    by_cases same : k = key r
    · simp [same]
    · have apart : ¬ key r = k := fun eq => same eq.symm
      simp [same, apart]

theorem get_remove (t : Table key) (check : ρ → Bool) (k : κ) :
    (t.remove check).get k = (t.get k).filter fun r => !check r := by
  ext r
  rw [get_eq_some_iff, mem_remove, Option.filter_eq_some_iff, get_eq_some_iff,
    Bool.not_eq_true']
  exact ⟨fun ⟨⟨here, stays⟩, named⟩ => ⟨⟨here, named⟩, stays⟩,
    fun ⟨⟨here, named⟩, stays⟩ => ⟨⟨here, stays⟩, named⟩⟩

/-- Add a row, unless its key is taken. -/
def insert (t : Table key) (r : ρ) : Table key :=
  if taken : t.get (key r) = none then
    { rows := t.rows ++ [r]
      unique := by
        rw [List.map_append, List.map_singleton, List.nodup_append]
        refine ⟨t.unique, List.nodup_singleton _, ?_⟩
        intro a old b new same
        obtain ⟨s, here, rfl⟩ := List.mem_map.mp old
        obtain rfl := List.mem_singleton.mp new
        exact get_eq_none_iff.mp taken s here same }
  else t

theorem rows_insert {t : Table key} {r : ρ} (fresh : t.get (key r) = none) :
    (t.insert r).rows = t.rows ++ [r] := by
  simp [insert, fresh]

theorem mem_insert {t : Table key} {r s : ρ} (fresh : t.get (key r) = none) :
    s ∈ t.insert r ↔ s ∈ t ∨ s = r := by
  simp [mem_def, rows_insert fresh]

theorem get_insert {t : Table key} {r : ρ} (fresh : t.get (key r) = none) (k : κ) :
    (t.insert r).get k = if key r = k then some r else t.get k := by
  by_cases same : key r = k
  · rw [if_pos same, get_eq_some_iff, mem_insert fresh]
    exact ⟨.inr rfl, same⟩
  · rw [if_neg same]
    cases found : t.get k with
    | none =>
      rw [get_eq_none_iff] at found ⊢
      intro s here
      rcases (mem_insert fresh).mp here with old | rfl
      · exact found s old
      · exact same
    | some s =>
      rw [get_eq_some_iff] at found ⊢
      exact ⟨(mem_insert fresh).mpr (.inl found.1), found.2⟩

theorem get_insert' (t : Table key) (r : ρ) (k : κ) :
    (t.insert r).get k = (t.get k).or (if key r = k then some r else none) := by
  cases taken : t.get (key r) with
  | none =>
    rw [get_insert taken]
    by_cases same : key r = k
    · rw [if_pos same, if_pos same, ← same, taken, Option.none_or]
    · rw [if_neg same, if_neg same, Option.or_none]
  | some s =>
    have kept : t.insert r = t := by simp [insert, taken]
    rw [kept]
    by_cases same : key r = k
    · rw [← same, taken, Option.some_or]
    · rw [if_neg same, Option.or_none]

theorem mem_iff_get {t : Table key} {r : ρ} : r ∈ t ↔ t.get (key r) = some r := by
  rw [get_eq_some_iff]
  exact ⟨fun here => ⟨here, rfl⟩, fun found => found.1⟩

/-- Add the rows whose keys are not taken, one after the other. -/
def insertMany (t : Table key) (rows : List ρ) : Table key := rows.foldl insert t

theorem get_insertMany (t : Table key) (rows : List ρ) (k : κ) :
    (t.insertMany rows).get k = (t.get k).or (rows.find? fun r => key r = k) := by
  induction rows generalizing t with
  | nil => rw [insertMany, List.foldl_nil, List.find?_nil, Option.or_none]
  | cons r rows ih =>
    rw [insertMany, List.foldl_cons, ← insertMany, ih, get_insert', Option.or_assoc,
      List.find?_cons]
    by_cases same : key r = k
    · simp [same]
    · simp [same]

theorem find?_map_key {f : κ → ρ} (keyed : ∀ k, key (f k) = k) (keys : List κ) (k : κ) :
    (keys.map f).find? (fun r => key r = k) = if k ∈ keys then some (f k) else none := by
  induction keys with
  | nil => rfl
  | cons first rest ih =>
    rw [List.map_cons, List.find?_cons, keyed, ih]
    by_cases same : first = k
    · simp [same]
    · have apart : k ≠ first := fun eq => same eq.symm
      simp [same, apart]

/-- Change the row with the key of the given one, or add the given one. -/
def updateOrCreate (t : Table key) (r : ρ) (change : ρ → ρ) (keeps : ∀ r, key (change r) = key r) :
    Table key :=
  if (t.get (key r)).isSome then t.modify (fun s => decide (key s = key r)) change keeps
  else t.insert r

theorem get_updateOrCreate (t : Table key) (r : ρ) (change : ρ → ρ)
    (keeps : ∀ r, key (change r) = key r) (k : κ) :
    (t.updateOrCreate r change keeps).get k =
      if key r = k then some (((t.get k).map change).getD r) else t.get k := by
  unfold updateOrCreate
  cases taken : t.get (key r) with
  | none =>
    rw [if_neg (by simp), get_insert taken]
    by_cases same : key r = k
    · rw [if_pos same, if_pos same, ← same, taken, Option.map_none, Option.getD_none]
    · rw [if_neg same, if_neg same]
  | some s =>
    rw [if_pos (by simp), get_modify]
    by_cases same : key r = k
    · subst same
      have named := (get_eq_some_iff.mp taken).2
      simp [taken, named]
    · rw [if_neg same]
      cases found : t.get k with
      | none => rfl
      | some u =>
        have named := (get_eq_some_iff.mp found).2
        have apart : ¬ key u = key r := fun eq => same (eq.symm.trans named)
        simp [apart]

section Counting

variable (check : ρ → Bool)

theorem count_insert {t : Table key} {r : ρ} (unseen : check r = false) :
    ((t.insert r).rows.filter check).length = (t.rows.filter check).length := by
  unfold insert
  split
  · simp [unseen]
  · rfl

theorem count_insertMany {t : Table key} {rows : List ρ} (unseen : ∀ r ∈ rows, check r = false) :
    ((t.insertMany rows).rows.filter check).length = (t.rows.filter check).length := by
  induction rows generalizing t with
  | nil => rfl
  | cons r rows ih =>
    rw [insertMany, List.foldl_cons, ← insertMany,
      ih fun s listed => unseen s (List.mem_cons_of_mem r listed)]
    exact count_insert check (unseen r List.mem_cons_self)

theorem count_updateOrCreate {t : Table key} {r : ρ} {change : ρ → ρ}
    {keeps : ∀ r, key (change r) = key r} (unseen : check r = false)
    (same : ∀ r ∈ t, check (change r) = check r) :
    ((t.updateOrCreate r change keeps).rows.filter check).length = (t.rows.filter check).length := by
  unfold updateOrCreate
  split
  · exact count_modify check same
  · exact count_insert check unseen

theorem updateOrCreate_of_mem {t : Table key} {r s : ρ} {change : ρ → ρ}
    {keeps : ∀ r, key (change r) = key r} (found : t.get (key r) = some s) :
    t.updateOrCreate r change keeps = t.modify (fun s => decide (key s = key r)) change keeps :=
  if_pos (by rw [found]; rfl)

end Counting

section NextKey

variable {ρ : Type u} {key : ρ → Nat} (t : Table key)

/-- The key that the next row gets. -/
def nextKey : Nat := (t.rows.map key).foldr max 0 + 1

private theorem le_foldr_max {keys : List Nat} {k : Nat} (listed : k ∈ keys) :
    k ≤ keys.foldr max 0 := by
  induction keys with
  | nil => cases listed
  | cons first rest ih =>
    rcases List.mem_cons.mp listed with rfl | later
    · exact Nat.le_max_left _ _
    · exact Nat.le_trans (ih later) (Nat.le_max_right _ _)

theorem lt_nextKey {r : ρ} (here : r ∈ t) : key r < t.nextKey :=
  Nat.lt_succ_of_le (le_foldr_max (List.mem_map_of_mem here))

theorem get_nextKey : t.get t.nextKey = none := by
  rw [get_eq_none_iff]
  intro r here
  exact Nat.ne_of_lt (t.lt_nextKey here)

end NextKey

end Table

end Piltover.Foundation
