/- source: none (library)
   digest: Reading ordered rows page by page, each page from the last row of the one before it. -/

import Mathlib.Data.List.Basic
import Mathlib.Data.List.Perm.Basic
import Mathlib.Data.List.Nodup
import Mathlib.Tactic.Common

set_option autoImplicit false

namespace Piltover.Foundation.Walks

universe u

variable {α : Type u} {sorted : List α} {selects : α → α → Bool} {limit : Nat}

/-- The first rows, or the first of those that the last row read so far selects. -/
def page (sorted : List α) (selects : α → α → Bool) (limit : Nat) : Option α → List α
  | none => sorted.take limit
  | some last => (sorted.filter (selects last)).take limit

/-- The pages until an empty one, when the fuel is enough. -/
def walk (sorted : List α) (selects : α → α → Bool) (limit : Nat) :
    Nat → Option α → Option (List (List α))
  | 0, _ => none
  | fuel + 1, offset =>
    if (page sorted selects limit offset).isEmpty then some []
    else (walk sorted selects limit fuel (page sorted selects limit offset).getLast?).map
      (page sorted selects limit offset :: ·)

/-- After any number of full pages the last row selects exactly the rows that follow. -/
def Cuts (sorted : List α) (selects : α → α → Bool) (limit : Nat) : Prop :=
  ∀ pages last, (sorted.take (pages * limit)).getLast? = some last →
    (∀ r ∈ sorted.take (pages * limit), selects last r = false) ∧
      ∀ r ∈ sorted.drop (pages * limit), selects last r = true

theorem walk_of_empty {fuel : Nat} {offset : Option α}
    (empty : page sorted selects limit offset = []) :
    walk sorted selects limit (fuel + 1) offset = some [] := by
  rw [walk, empty]
  rfl

theorem walk_of_page {fuel : Nat} {offset : Option α} {last : α}
    (ends : (page sorted selects limit offset).getLast? = some last) :
    walk sorted selects limit (fuel + 1) offset =
      (walk sorted selects limit fuel (some last)).map (page sorted selects limit offset :: ·) := by
  rw [walk, ends, if_neg]
  intro empty
  rw [List.isEmpty_iff.mp empty] at ends
  cases ends

theorem filter_eq_drop {k : Nat} {last : α}
    (before : ∀ r ∈ sorted.take k, selects last r = false)
    (after : ∀ r ∈ sorted.drop k, selects last r = true) :
    sorted.filter (selects last) = sorted.drop k := by
  have none : (sorted.take k).filter (selects last) = [] :=
    List.filter_eq_nil_iff.mpr fun r listed => Bool.eq_false_iff.mp (before r listed)
  have all : (sorted.drop k).filter (selects last) = sorted.drop k :=
    List.filter_eq_self.mpr after
  conv_lhs => rw [← List.take_append_drop k sorted]
  rw [List.filter_append, none, all, List.nil_append]

theorem take_next (pages : Nat) :
    sorted.take ((pages + 1) * limit) =
      sorted.take (pages * limit) ++ (sorted.drop (pages * limit)).take limit := by
  rw [Nat.succ_mul, List.take_add]

theorem walk_of_cuts (asked : 0 < limit) (cuts : Cuts sorted selects limit) (pages : Nat) {last : α}
    (ends : (sorted.take (pages * limit)).getLast? = some last) :
    ∃ fuel read, walk sorted selects limit fuel (some last) = some read ∧
      read.flatten = sorted.drop (pages * limit) := by
  induction counted : sorted.length - pages * limit using Nat.strongRecOn
    generalizing pages last with
  | _ left ih =>
    obtain ⟨before, after⟩ := cuts pages last ends
    have next : page sorted selects limit (some last) =
        (sorted.drop (pages * limit)).take limit := by
      rw [page, filter_eq_drop before after]
    cases rest : sorted.drop (pages * limit) with
    | nil =>
      rw [rest, List.take_nil] at next
      exact ⟨1, [], walk_of_empty next, rfl⟩
    | cons r rows =>
      obtain ⟨m, rfl⟩ : ∃ m, limit = m + 1 := ⟨limit - 1, by omega⟩
      have long : 0 < (sorted.drop (pages * (m + 1))).length := by
        rw [rest]
        exact Nat.succ_pos _
      obtain ⟨last', ends'⟩ : ∃ last', (page sorted selects (m + 1) (some last)).getLast? =
          some last' := by
        rw [next, rest, List.take_succ_cons]
        exact ⟨_, List.getLast?_eq_getLast_of_ne_nil (List.cons_ne_nil _ _)⟩
      have further : (sorted.take ((pages + 1) * (m + 1))).getLast? = some last' := by
        rw [take_next, ← next, List.getLast?_append, ends', Option.some_or]
      have fewer : sorted.length - (pages + 1) * (m + 1) < left := by
        rw [List.length_drop] at long
        rw [Nat.succ_mul]
        omega
      obtain ⟨fuel, read, reads, same⟩ := ih _ fewer (pages + 1) further rfl
      refine ⟨fuel + 1, page sorted selects (m + 1) (some last) :: read, ?_, ?_⟩
      · rw [walk_of_page ends', reads, Option.map_some]
      · rw [List.flatten_cons, same, next, ← rest, Nat.succ_mul, ← List.drop_drop,
          List.take_append_drop]

/-- Where the offsets cut the rows, the pages together are the rows. -/
theorem reads_of_cuts (asked : 0 < limit) (cuts : Cuts sorted selects limit) :
    ∃ fuel read, walk sorted selects limit fuel none = some read ∧ read.flatten = sorted := by
  have first : page sorted selects limit none = sorted.take (1 * limit) := by
    rw [Nat.one_mul]
    rfl
  cases ends : (sorted.take (1 * limit)).getLast? with
  | none =>
    have empty := List.getLast?_eq_none_iff.mp ends
    rw [Nat.one_mul, List.take_eq_nil_iff] at empty
    have nothing : sorted = [] := empty.resolve_left (Nat.pos_iff_ne_zero.mp asked)
    refine ⟨1, [], walk_of_empty ?_, nothing.symm⟩
    rw [first, nothing, List.take_nil]
  | some last =>
    obtain ⟨fuel, read, reads, same⟩ := walk_of_cuts asked cuts 1 ends
    refine ⟨fuel + 1, page sorted selects limit none :: read, ?_, ?_⟩
    · rw [walk_of_page (first ▸ ends), reads, Option.map_some]
    · rw [List.flatten_cons, same, first, List.take_append_drop]

theorem cuts_of_bounded (asked : 0 < limit)
    (bounded : ∀ pages ≤ sorted.length, ∀ last ∈ (sorted.take (pages * limit)).getLast?,
      (∀ r ∈ sorted.take (pages * limit), selects last r = false) ∧
        ∀ r ∈ sorted.drop (pages * limit), selects last r = true) : Cuts sorted selects limit := by
  intro pages last ends
  by_cases few : pages ≤ sorted.length
  · exact bounded pages few last ends
  · have most : sorted.length ≤ sorted.length * limit := Nat.le_mul_of_pos_right _ asked
    have more : sorted.length ≤ pages * limit :=
      Nat.le_trans (Nat.le_of_lt (Nat.lt_of_not_le few)) (Nat.le_mul_of_pos_right _ asked)
    have all := bounded sorted.length (Nat.le_refl _) last
    rw [List.take_of_length_le most, List.drop_eq_nil_of_le most] at all
    rw [List.take_of_length_le more] at ends ⊢
    rw [List.drop_eq_nil_of_le more]
    exact all ends

section Converse

variable {rank : α → Nat}

/-- What a row selects, when it comes from a selected row and not before it, is selected too. -/
def Nested (sorted : List α) (selects : α → α → Bool) (rank : α → Nat) : Prop :=
  ∀ r ∈ sorted, ∀ s ∈ sorted, ∀ t ∈ sorted, rank s ≤ rank r → rank t ≤ rank s →
    selects r s = true → selects s t = true → selects r t = true

theorem selected_of_walk (nested : Nested sorted selects rank) {fuel : Nat} {last : α}
    {read : List (List α)} (there : last ∈ sorted)
    (reads : walk sorted selects limit fuel (some last) = some read)
    (ordered : (last :: read.flatten).Pairwise fun r s => rank s ≤ rank r) :
    ∀ r ∈ read.flatten, r ∈ sorted ∧ selects last r = true := by
  induction fuel generalizing last read with
  | zero => cases reads
  | succ fuel ih =>
    have ofPage : ∀ r ∈ page sorted selects limit (some last),
        r ∈ sorted ∧ selects last r = true := fun r listed =>
      List.mem_filter.mp (List.mem_of_mem_take listed)
    cases ends : (page sorted selects limit (some last)).getLast? with
    | none =>
      rw [walk_of_empty (List.getLast?_eq_none_iff.mp ends)] at reads
      cases reads
      intro r listed
      cases listed
    | some last' =>
      rw [walk_of_page ends, Option.map_eq_some_iff] at reads
      obtain ⟨later, reads, rfl⟩ := reads
      obtain ⟨front, cut⟩ := List.getLast?_eq_some_iff.mp ends
      have listed' : last' ∈ page sorted selects limit (some last) :=
        List.mem_of_getLast? ends
      rw [List.flatten_cons, cut, List.append_assoc, List.singleton_append,
        List.pairwise_cons] at ordered
      obtain ⟨lower, ordered⟩ := ordered
      have inner := (List.pairwise_append.mp ordered).2.1
      intro r listed
      rw [List.flatten_cons, List.mem_append] at listed
      rcases listed with here | listed
      · exact ofPage r here
      · obtain ⟨known, chosen⟩ := ih (ofPage last' listed').1 reads inner r listed
        refine ⟨known, nested last there last' (ofPage last' listed').1 r known ?_ ?_
          (ofPage last' listed').2 chosen⟩
        · exact lower last' (List.mem_append_right _ List.mem_cons_self)
        · exact (List.pairwise_cons.mp inner).1 r listed

/-- The last row read so far selects what follows and nothing else, when what is read after it is
what follows. -/
theorem cut_of_walk (asked : 0 < limit) (distinct : sorted.Nodup)
    (nested : Nested sorted selects rank) {k fuel : Nat} {last : α} {read : List (List α)}
    (ends : (sorted.take k).getLast? = some last)
    (reads : walk sorted selects limit fuel (some last) = some read)
    (same : read.flatten.Perm (sorted.drop k))
    (ordered : (sorted.take k ++ read.flatten).Pairwise fun r s => rank s ≤ rank r) :
    (∀ r ∈ sorted.take k, selects last r = false) ∧ ∀ r ∈ sorted.drop k, selects last r = true := by
  obtain ⟨front, cut⟩ := List.getLast?_eq_some_iff.mp ends
  have there : last ∈ sorted := List.mem_of_mem_take (List.mem_of_getLast? ends)
  have apart : (sorted.take k).Disjoint (sorted.drop k) := by
    have distinct' := distinct
    rw [← List.take_append_drop k sorted] at distinct'
    exact List.disjoint_of_nodup_append distinct'
  constructor
  · intro r listed
    rw [Bool.eq_false_iff]
    intro chosen
    -- the first row of the next page has been read before
    have again : ∃ f rest, page sorted selects limit (some last) = f :: rest ∧
        f ∈ sorted.take k := by
      obtain ⟨m, rfl⟩ : ∃ m, limit = m + 1 := ⟨limit - 1, by omega⟩
      have inFront : r ∈ (sorted.take k).filter (selects last) :=
        List.mem_filter.mpr ⟨listed, chosen⟩
      have split : sorted.filter (selects last) =
          (sorted.take k).filter (selects last) ++ (sorted.drop k).filter (selects last) := by
        rw [← List.filter_append, List.take_append_drop]
      cases taken : (sorted.take k).filter (selects last) with
      | nil =>
        rw [taken] at inFront
        cases inFront
      | cons f rest =>
        refine ⟨f, (rest ++ (sorted.drop k).filter (selects last)).take m, ?_, ?_⟩
        · rw [page, split, taken, List.cons_append, List.take_succ_cons]
        · exact List.mem_of_mem_filter (p := selects last) (by
            rw [taken]
            exact List.mem_cons_self)
    obtain ⟨f, rest, next, early⟩ := again
    have isRead : f ∈ read.flatten := by
      cases fuel with
      | zero => cases reads
      | succ fuel =>
        obtain ⟨last', ends'⟩ : ∃ last', (page sorted selects limit (some last)).getLast? =
            some last' := by
          rw [next]
          exact ⟨_, List.getLast?_eq_getLast_of_ne_nil (List.cons_ne_nil _ _)⟩
        rw [walk_of_page ends', Option.map_eq_some_iff] at reads
        obtain ⟨later, -, rfl⟩ := reads
        rw [List.flatten_cons, next]
        exact List.mem_append_left _ List.mem_cons_self
    exact apart early (same.mem_iff.mp isRead)
  · intro r listed
    have fromLast : (last :: read.flatten).Pairwise fun r s => rank s ≤ rank r := by
      rw [cut, List.append_assoc] at ordered
      exact (List.pairwise_append.mp ordered).2.1
    exact (selected_of_walk nested there reads fromLast r (same.mem_iff.mpr listed)).2

theorem read_on {k fuel : Nat} {offset : Option α} {last : α} {read : List (List α)}
    (next : page sorted selects limit offset = (sorted.drop k).take limit)
    (more : sorted.drop k ≠ []) (asked : 0 < limit)
    (ends : (sorted.take (k + limit)).getLast? = some last)
    (reads : walk sorted selects limit fuel offset = some read)
    (same : read.flatten.Perm (sorted.drop k))
    (ordered : (sorted.take k ++ read.flatten).Pairwise fun r s => rank s ≤ rank r) :
    ∃ fuel read, walk sorted selects limit fuel (some last) = some read ∧
      read.flatten.Perm (sorted.drop (k + limit)) ∧
      (sorted.take (k + limit) ++ read.flatten).Pairwise fun r s => rank s ≤ rank r := by
  have inPage : (page sorted selects limit offset).getLast? = some last := by
    cases ends' : (page sorted selects limit offset).getLast? with
    | none =>
      rw [next, List.getLast?_eq_none_iff, List.take_eq_nil_iff] at ends'
      exact absurd (ends'.resolve_left (Nat.pos_iff_ne_zero.mp asked)) more
    | some last' =>
      rw [List.take_add, List.getLast?_append, ← next, ends', Option.some_or] at ends
      exact ends
  cases fuel with
  | zero => cases reads
  | succ fuel =>
    rw [walk_of_page inPage, Option.map_eq_some_iff] at reads
    obtain ⟨later, reads, rfl⟩ := reads
    rw [List.flatten_cons, next] at same ordered
    refine ⟨fuel, later, reads, ?_, ?_⟩
    · have parts : sorted.drop k = (sorted.drop k).take limit ++ sorted.drop (k + limit) := by
        rw [← List.drop_drop, List.take_append_drop]
      exact (List.perm_append_left_iff _).mp (same.trans (List.Perm.of_eq parts))
    · rw [List.take_add, List.append_assoc]
      exact ordered

/-- Pages that give every row once and in order come only from offsets that cut the rows. -/
theorem cuts_of_walk (asked : 0 < limit) (distinct : sorted.Nodup)
    (nested : Nested sorted selects rank) {fuel : Nat} {read : List (List α)}
    (reads : walk sorted selects limit fuel none = some read) (same : read.flatten.Perm sorted)
    (ordered : read.flatten.Pairwise fun r s => rank s ≤ rank r) : Cuts sorted selects limit := by
  have reached : ∀ pages last, (sorted.take (pages * limit)).getLast? = some last →
      ∃ fuel read, walk sorted selects limit fuel (some last) = some read ∧
        read.flatten.Perm (sorted.drop (pages * limit)) ∧
        (sorted.take (pages * limit) ++ read.flatten).Pairwise fun r s => rank s ≤ rank r := by
    intro pages
    induction pages with
    | zero =>
      intro last ends
      rw [Nat.zero_mul, List.take_zero] at ends
      cases ends
    | succ pages ih =>
      intro last ends
      cases ends' : (sorted.take (pages * limit)).getLast? with
      | none =>
        have none := List.getLast?_eq_none_iff.mp ends'
        rcases List.take_eq_nil_iff.mp none with start | nothing
        · rw [Nat.succ_mul, start] at ends ⊢
          refine read_on rfl ?_ asked ends reads same ordered
          intro nothing
          rw [show sorted = [] from nothing, List.take_nil] at ends
          cases ends
        · rw [nothing, List.take_nil] at ends
          cases ends
      | some last' =>
        obtain ⟨fuel, read, reads, same, ordered⟩ := ih last' ends'
        obtain ⟨before, after⟩ :=
          cut_of_walk asked distinct nested ends' reads same ordered
        by_cases more : sorted.drop (pages * limit) = []
        · have all : sorted.take (pages * limit) = sorted :=
            List.take_of_length_le (List.drop_eq_nil_iff.mp more)
          have still : sorted.take ((pages + 1) * limit) = sorted := by
            rw [take_next, more, List.take_nil, List.append_nil, all]
          have beyond : sorted.drop ((pages + 1) * limit) = [] := by
            rw [Nat.succ_mul, ← List.drop_drop, more, List.drop_nil]
          rw [still] at ends ⊢
          rw [all] at ends' ordered
          obtain rfl := Option.some.inj (ends'.symm.trans ends)
          rw [more] at same
          exact ⟨fuel, read, reads, beyond ▸ same, ordered⟩
        · have next : page sorted selects limit (some last') =
              (sorted.drop (pages * limit)).take limit := by
            rw [page, filter_eq_drop before after]
          rw [Nat.succ_mul] at ends ⊢
          exact read_on next more asked ends reads same ordered
  intro pages last ends
  obtain ⟨fuel, read, reads, same, ordered⟩ := reached pages last ends
  exact cut_of_walk asked distinct nested ends reads same ordered

end Converse

end Piltover.Foundation.Walks
