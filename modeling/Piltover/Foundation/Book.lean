/- source: none (library)
   digest: Accounts, the entries that explain them, and when a posting keeps the two in step. -/

import Mathlib.Algebra.BigOperators.Group.List.Basic
import Mathlib.Algebra.Order.Ring.Int
import Mathlib.Logic.Function.Basic

set_option autoImplicit false

namespace Piltover.Foundation

universe u

variable {α : Type u} [DecidableEq α]

/-- What each account holds, and the signed entries of the journal. -/
structure Book (α : Type u) where
  held : α → Int
  entries : List (α × Int)

namespace Book

/-- The sum of the entries of one account. -/
def total (entries : List (α × Int)) (a : α) : Int :=
  ((entries.filter fun entry => entry.1 = a).map Prod.snd).sum

/-- The account is not overdrawn, and its entries explain what it holds. -/
def SolventAt (b : Book α) (a : α) : Prop := 0 ≤ b.held a ∧ b.held a = total b.entries a

def Solvent (b : Book α) : Prop := ∀ a, b.SolventAt a

/-- One account changes by `change`, and the journal says `entry`. -/
def post (b : Book α) (a : α) (change entry : Int) : Book α where
  held := Function.update b.held a (b.held a + change)
  entries := b.entries ++ [(a, entry)]

/-- Both accounts are read before either is written, and each change is entered. -/
def move (b : Book α) (payer recipient : α) (debit credit : Int) : Book α where
  held := Function.update (Function.update b.held payer (b.held payer - debit)) recipient
    (b.held recipient + credit)
  entries := b.entries ++ [(payer, -debit), (recipient, credit)]

theorem total_append (entries more : List (α × Int)) (a : α) :
    total (entries ++ more) a = total entries a + total more a := by
  simp only [total, List.filter_append, List.map_append, List.sum_append]

theorem total_single_self (a : α) (x : Int) : total [(a, x)] a = x := by
  simp [total]

theorem total_single_ne {a c : α} (ne : c ≠ a) (x : Int) : total [(c, x)] a = 0 := by
  simp [total, ne]

theorem total_cons (entry : α × Int) (entries : List (α × Int)) (a : α) :
    total (entry :: entries) a = total [entry] a + total entries a :=
  total_append [entry] entries a

variable {b : Book α} {a payer recipient : α} {change entry debit credit : Int}

theorem solventAt_post_self_iff (solvent : b.SolventAt a) :
    (b.post a change entry).SolventAt a ↔ change = entry ∧ 0 ≤ b.held a + change := by
  obtain ⟨_, explained⟩ := solvent
  have held : (b.post a change entry).held a = b.held a + change := Function.update_self ..
  have entered : total (b.post a change entry).entries a = total b.entries a + entry := by
    rw [post, total_append, total_single_self]
  rw [SolventAt, held, entered]
  omega

theorem solventAt_post_ne {c : α} (ne : a ≠ c) :
    (b.post a change entry).SolventAt c ↔ b.SolventAt c := by
  have held : (b.post a change entry).held c = b.held c := Function.update_of_ne ne.symm ..
  have entered : total (b.post a change entry).entries c = total b.entries c := by
    rw [post, total_append, total_single_ne ne, Int.add_zero]
  rw [SolventAt, held, entered, SolventAt]

theorem solvent_post_iff (solvent : b.Solvent) :
    (b.post a change entry).Solvent ↔ change = entry ∧ 0 ≤ b.held a + change := by
  constructor
  · intro kept
    exact (solventAt_post_self_iff (solvent a)).mp (kept a)
  · intro matching c
    rcases eq_or_ne a c with rfl | ne
    · exact (solventAt_post_self_iff (solvent a)).mpr matching
    · exact (solventAt_post_ne ne).mpr (solvent c)

theorem move_eq_post_post (ne : payer ≠ recipient) :
    b.move payer recipient debit credit =
      (b.post payer (-debit) (-debit)).post recipient credit credit := by
  have unread : (b.post payer (-debit) (-debit)).held recipient = b.held recipient :=
    Function.update_of_ne ne.symm ..
  rw [post, unread]
  simp only [move, post, List.append_assoc, List.singleton_append, Int.sub_eq_add_neg]

theorem not_solventAt_move_self (solvent : b.SolventAt a) (pays : 0 < debit) :
    ¬ (b.move a a debit credit).SolventAt a := by
  obtain ⟨_, explained⟩ := solvent
  have held : (b.move a a debit credit).held a = b.held a + credit := Function.update_self ..
  have entered : total (b.move a a debit credit).entries a =
      total b.entries a + (-debit + credit) := by
    rw [move, total_append, total_cons, total_single_self, total_single_self]
  rintro ⟨_, explained'⟩
  rw [held, entered] at explained'
  omega

theorem solvent_move_iff (solvent : b.Solvent) (recipient : α) (pays : 0 < debit)
    (gains : 0 < credit) (affordable : debit ≤ b.held payer) :
    (b.move payer recipient debit credit).Solvent ↔ payer ≠ recipient := by
  constructor
  · rintro kept rfl
    exact not_solventAt_move_self (solvent payer) pays (kept payer)
  · intro ne
    rw [move_eq_post_post ne]
    have debited : (b.post payer (-debit) (-debit)).Solvent :=
      (solvent_post_iff solvent).mpr ⟨rfl, by omega⟩
    refine (solvent_post_iff debited).mpr ⟨rfl, ?_⟩
    have := (debited recipient).1
    omega

end Book

end Piltover.Foundation
