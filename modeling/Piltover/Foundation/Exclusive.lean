/- source: none (library)
   digest: Keys that tasks hold, spend and give up, none of them twice. -/

import Mathlib.Data.List.Perm.Subperm
import Mathlib.Data.List.Nodup

set_option autoImplicit false

namespace Piltover.Foundation.Exclusive

universe u v

variable {τ : Type u} {κ : Type v}

/-- The keys that the tasks hold, and those that are spent. -/
def taken (key : τ → Option κ) (tasks : List τ) (spent : List κ) : List κ :=
  tasks.filterMap key ++ spent

/-- No key is held by two tasks, spent twice, or held and spent. -/
def Apart (key : τ → Option κ) (tasks : List τ) (spent : List κ) : Prop :=
  (taken key tasks spent).Nodup

/-- What a task may do to the key it holds and to the spent ones, short of taking a new one. -/
inductive Settles : Option κ → Option κ → List κ → List κ → Prop
  | keep (was : Option κ) (spent : List κ) : Settles was was spent spent
  | release (was : Option κ) (spent : List κ) : Settles was none spent spent
  | spend (k : κ) (spent after : List κ) (more : after.Perm (k :: spent)) :
      Settles (some k) none spent after

variable {key : τ → Option κ} {tasks : List τ} {spent after : List κ} {i : Nat} {t t' : τ}

theorem exists_others (key : τ → Option κ) (present : tasks[i]? = some t) :
    ∃ others : List κ, ∀ t', ((tasks.set i t').filterMap key).Perm ((key t').toList ++ others) := by
  induction tasks generalizing i with
  | nil => cases present
  | cons head rest ih =>
    cases i with
    | zero =>
      refine ⟨rest.filterMap key, fun t' => ?_⟩
      rw [List.set_cons_zero, List.filterMap_cons]
      cases key t' <;> exact List.Perm.refl _
    | succ i =>
      obtain ⟨others, perm⟩ := ih present
      refine ⟨(key head).toList ++ others, fun t' => ?_⟩
      have front : ((rest.set i t').filterMap key).Perm ((key t').toList ++ others) := perm t'
      rw [List.set_cons_succ, List.filterMap_cons]
      cases key head with
      | none => exact front
      | some k =>
        have moved : ((key t').toList ++ k :: others).Perm
            (k :: ((key t').toList ++ others)) := List.perm_middle
        exact (front.cons k).trans moved.symm

private theorem set_self (present : tasks[i]? = some t) : tasks.set i t = tasks := by
  obtain ⟨bound, same⟩ := List.getElem?_eq_some_iff.mp present
  rw [← same]
  exact List.set_getElem_self bound

theorem subperm_of_settles (present : tasks[i]? = some t)
    (settles : Settles (key t) (key t') spent after) :
    (taken key (tasks.set i t') after).Subperm (taken key tasks spent) := by
  obtain ⟨others, perm⟩ := exists_others key present
  have before : (taken key tasks spent).Perm ((key t).toList ++ others ++ spent) := by
    have here := perm t
    rw [set_self present] at here
    exact here.append_right spent
  have now : (taken key (tasks.set i t') after).Perm ((key t').toList ++ others ++ after) :=
    (perm t').append_right after
  refine now.subperm.trans (List.Subperm.trans ?_ before.symm.subperm)
  generalize key t = was at settles
  generalize key t' = new at settles
  cases settles with
  | keep => exact List.Subperm.refl _
  | release =>
    rw [List.append_assoc, List.append_assoc]
    exact (List.sublist_append_right _ _).subperm
  | spend k spent after more =>
    have gathered : (others ++ after).Perm (k :: (others ++ spent)) :=
      (more.append_left others).trans List.perm_middle
    exact gathered.subperm

theorem apart_of_settles (present : tasks[i]? = some t) (apart : Apart key tasks spent)
    (settles : Settles (key t) (key t') spent after) : Apart key (tasks.set i t') after := by
  obtain ⟨middle, perm, sub⟩ := subperm_of_settles present settles
  exact perm.nodup_iff.mp (sub.nodup apart)

theorem mem_of_settles (present : tasks[i]? = some t)
    (settles : Settles (key t) (key t') spent after) {k : κ}
    (mem : k ∈ taken key (tasks.set i t') after) : k ∈ taken key tasks spent :=
  (subperm_of_settles present settles).subset mem

theorem perm_of_take (spent : List κ) (present : tasks[i]? = some t) {k : κ} (free : key t = none)
    (takes : key t' = some k) :
    (taken key (tasks.set i t') spent).Perm (k :: taken key tasks spent) := by
  obtain ⟨others, perm⟩ := exists_others key present
  have before := perm t
  rw [set_self present, free] at before
  have now := perm t'
  rw [takes] at now
  exact (now.trans (before.symm.cons k)).append_right spent

theorem apart_of_take (present : tasks[i]? = some t) (apart : Apart key tasks spent) {k : κ}
    (free : key t = none) (takes : key t' = some k) (unused : k ∉ taken key tasks spent) :
    Apart key (tasks.set i t') spent := by
  have added := perm_of_take spent present free takes
  exact added.nodup_iff.mpr (List.nodup_cons.mpr ⟨unused, apart⟩)

theorem taken_append (key : τ → Option κ) (tasks : List τ) (spent : List κ) (free : key t = none) :
    taken key (tasks ++ [t]) spent = taken key tasks spent := by
  rw [taken, List.filterMap_append, List.filterMap_cons, free]
  simp only [List.filterMap_nil, List.append_nil, taken]

theorem count_spent_le_one [BEq κ] [LawfulBEq κ] (apart : Apart key tasks spent) (k : κ) :
    spent.count k ≤ 1 :=
  List.nodup_iff_count_le_one.mp (List.Nodup.of_append_right apart) k

end Piltover.Foundation.Exclusive
