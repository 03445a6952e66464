/- source: none (library)
   digest: Lists ordered by a key, and the places that a search for a key finds in them. -/

import Mathlib.Data.List.Basic
import Mathlib.Order.Basic

set_option autoImplicit false

namespace Piltover.Foundation.Bisection

universe u

variable {α : Type u} (key : α → Int)

def Ordered (l : List α) : Prop := l.Pairwise fun a b => key a ≤ key b

/-- How many elements of an ordered list have a smaller key. -/
def bisectLeft (l : List α) (x : Int) : Nat := (l.takeWhile fun a => key a < x).length

/-- How many elements of an ordered list have no greater key. -/
def bisectRight (l : List α) (x : Int) : Nat := (l.takeWhile fun a => key a ≤ x).length

/-- The element is put behind those of an ordered list that have no greater key. -/
def insort (a : α) (l : List α) : List α :=
  l.take (bisectRight key l (key a)) ++ a :: l.drop (bisectRight key l (key a))

variable {key} {l : List α} {x : Int}

theorem takeWhile_eq_filter {p : α → Bool}
    (down : l.Pairwise fun a b => p b = true → p a = true) : l.takeWhile p = l.filter p := by
  induction l with
  | nil => rfl
  | cons a l ih =>
    obtain ⟨first, rest⟩ := List.pairwise_cons.mp down
    rw [List.takeWhile_cons, List.filter_cons]
    split
    case isTrue => rw [ih rest]
    case isFalse failed =>
      refine (List.filter_eq_nil_iff.mpr fun b mem is => ?_).symm
      exact failed (first b mem is)

theorem dropWhile_eq_filter {p : α → Bool}
    (down : l.Pairwise fun a b => p b = true → p a = true) :
    l.dropWhile p = l.filter fun a => !p a := by
  induction l with
  | nil => rfl
  | cons a l ih =>
    obtain ⟨first, rest⟩ := List.pairwise_cons.mp down
    rw [List.dropWhile_cons, List.filter_cons]
    cases here : p a with
    | true => exact ih rest
    | false =>
      rw [if_neg Bool.false_ne_true, Bool.not_false, if_pos rfl]
      refine congrArg (a :: ·) (List.filter_eq_self.mpr fun b mem => ?_).symm
      rw [Bool.not_eq_true', ← Bool.not_eq_true]
      intro is
      exact absurd (here.symm.trans (first b mem is)) Bool.false_ne_true

theorem take_length_takeWhile (p : α → Bool) (l : List α) :
    l.take (l.takeWhile p).length = l.takeWhile p :=
  (List.prefix_iff_eq_take.mp (List.takeWhile_prefix p)).symm

theorem drop_length_takeWhile (p : α → Bool) (l : List α) :
    l.drop (l.takeWhile p).length = l.dropWhile p := by
  have split : (l.takeWhile p ++ l.dropWhile p).drop (l.takeWhile p).length = l.dropWhile p :=
    List.drop_left
  rwa [List.takeWhile_append_dropWhile] at split

theorem take_bisectRight (ordered : Ordered key l) (x : Int) :
    l.take (bisectRight key l x) = l.filter fun a => key a ≤ x := by
  rw [bisectRight, take_length_takeWhile, takeWhile_eq_filter]
  refine ordered.imp fun le => ?_
  simp only [decide_eq_true_eq]
  omega

theorem drop_bisectRight (ordered : Ordered key l) (x : Int) :
    l.drop (bisectRight key l x) = l.filter fun a => x < key a := by
  rw [bisectRight, drop_length_takeWhile, dropWhile_eq_filter]
  · refine List.filter_congr fun a _ => ?_
    rw [← decide_not, decide_eq_decide]
    omega
  · refine ordered.imp fun le => ?_
    simp only [decide_eq_true_eq]
    omega

theorem drop_bisectLeft (ordered : Ordered key l) (x : Int) :
    l.drop (bisectLeft key l x) = l.filter fun a => x ≤ key a := by
  rw [bisectLeft, drop_length_takeWhile, dropWhile_eq_filter]
  · refine List.filter_congr fun a _ => ?_
    rw [← decide_not, decide_eq_decide]
    omega
  · refine ordered.imp fun le => ?_
    simp only [decide_eq_true_eq]
    omega

theorem getElem?_before_bisectRight (ordered : Ordered key l) (x : Int) :
    (if 0 < bisectRight key l x then l[bisectRight key l x - 1]? else none) =
      (l.filter fun a => key a ≤ x).getLast? := by
  have le : bisectRight key l x ≤ l.length := (List.takeWhile_prefix _).length_le
  rw [← take_bisectRight ordered x, List.getLast?_eq_getElem?, List.length_take_of_le le]
  split
  case isTrue some => rw [List.getElem?_take_of_lt (Nat.sub_lt some Nat.one_pos)]
  case isFalse none_ =>
    rw [Nat.eq_zero_of_not_pos none_, List.take_zero]
    rfl

theorem getElem?_bisectLeft (ordered : Ordered key l) (x : Int) (k : Nat) :
    l[bisectLeft key l x + k]? = (l.filter fun a => x ≤ key a)[k]? := by
  rw [← drop_bisectLeft ordered x, List.getElem?_drop]

theorem length_insort (a : α) (l : List α) : (insort key a l).length = l.length + 1 := by
  have le : bisectRight key l (key a) ≤ l.length := (List.takeWhile_prefix _).length_le
  rw [insort, List.length_append, List.length_cons, List.length_take_of_le le, List.length_drop]
  omega

theorem ordered_insort {a : α} (ordered : Ordered key l) : Ordered key (insort key a l) := by
  rw [Ordered, insort, take_bisectRight ordered, drop_bisectRight ordered, List.pairwise_append]
  refine ⟨ordered.filter _, List.pairwise_cons.mpr ⟨fun b mem => ?_, ordered.filter _⟩, ?_⟩
  · have after := (List.mem_filter.mp mem).2
    rw [decide_eq_true_eq] at after
    exact Int.le_of_lt after
  · intro b mem c later
    have before := (List.mem_filter.mp mem).2
    rw [decide_eq_true_eq] at before
    rcases List.mem_cons.mp later with rfl | later
    · exact before
    · have after := (List.mem_filter.mp later).2
      rw [decide_eq_true_eq] at after
      omega

end Piltover.Foundation.Bisection
