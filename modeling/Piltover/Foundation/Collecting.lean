/- source: none (library)
   digest: What may raise, and checks over a list that stop at the first error. -/

import Mathlib.Data.List.Basic

set_option autoImplicit false

namespace Piltover.Foundation

universe u v w

variable {α : Type u} {β : Type v} {ε : Type w}

section Except

variable {g : α → β} {p : ε → Prop} {x : Except ε α}

/-- An error of some kind is raised. -/
def Raises (p : ε → Prop) (x : Except ε α) : Prop := ∃ e, x = .error e ∧ p e

@[simp] theorem map_ok (a : α) : (Except.ok a : Except ε α).map g = .ok (g a) := rfl

@[simp] theorem map_error (e : ε) : (Except.error e : Except ε α).map g = .error e := rfl

@[simp] theorem not_raises_ok (a : α) : ¬ Raises p (.ok a : Except ε α) := by
  rintro ⟨e, same, -⟩
  cases same

@[simp] theorem raises_error (e : ε) : Raises p (.error e : Except ε α) ↔ p e := by
  simp [Raises]

@[simp] theorem raises_map : Raises p (x.map g) ↔ Raises p x := by
  cases x <;> simp

end Except

section Checks

variable {l : List α} {a : α} {p : ε → Prop} {x y : Except ε Bool} {check : α → Except ε Bool}

/-- The second check is made when the first one holds. -/
def andAlso (x y : Except ε Bool) : Except ε Bool :=
  match x with
  | .ok true => y
  | x => x

theorem andAlso_eq_true : andAlso x y = .ok true ↔ x = .ok true ∧ y = .ok true := by
  rcases x with e | _ | _ <;> simp [andAlso]

theorem raises_andAlso :
    Raises p (andAlso x y) ↔ Raises p x ∨ x = .ok true ∧ Raises p y := by
  rcases x with e | _ | _ <;> simp [andAlso]

theorem allM_cons : (a :: l).allM check = andAlso (check a) (l.allM check) := by
  rw [List.allM]
  rcases check a with e | _ | _ <;> rfl

theorem allM_eq_true : l.allM check = .ok true ↔ ∀ a ∈ l, check a = .ok true := by
  induction l with
  | nil => exact ⟨fun _ _ listed => (by cases listed), fun _ => rfl⟩
  | cons a l ih => rw [allM_cons, andAlso_eq_true, List.forall_mem_cons, ih]

theorem raises_allM :
    Raises p (l.allM check) ↔ ∃ before a after, l = before ++ a :: after ∧
      (∀ b ∈ before, check b = .ok true) ∧ Raises p (check a) := by
  induction l with
  | nil =>
    refine ⟨fun raised => absurd raised (not_raises_ok true), ?_⟩
    rintro ⟨before, a, after, cut, -⟩
    exact absurd cut.symm (List.append_ne_nil_of_right_ne_nil before (List.cons_ne_nil a after))
  | cons a l ih =>
    rw [allM_cons, raises_andAlso, ih]
    constructor
    · rintro (raised | ⟨holds, before, b, after, rfl, hold, raised⟩)
      · exact ⟨[], a, l, rfl, fun _ listed => (by cases listed), raised⟩
      · exact ⟨a :: before, b, after, rfl, List.forall_mem_cons.mpr ⟨holds, hold⟩, raised⟩
    · rintro ⟨_ | ⟨c, before⟩, b, after, cut, hold, raised⟩
      · obtain ⟨rfl, -⟩ := List.cons.inj cut
        exact .inl raised
      · obtain ⟨rfl, rfl⟩ := List.cons.inj cut
        obtain ⟨holds, hold⟩ := List.forall_mem_cons.mp hold
        exact .inr ⟨holds, before, b, after, rfl, hold, raised⟩

end Checks

end Piltover.Foundation
