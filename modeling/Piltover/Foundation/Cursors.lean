/- source: none (library)
   digest: Reading a growing table page by page, each page after the last row of the one before. -/

import Mathlib.Data.List.Sort
import Piltover.Foundation.Paging

set_option autoImplicit false

namespace Piltover.Foundation.Cursors

universe u v

variable {α : Type u} {κ : Type v} [LinearOrder κ] (rank : α → κ)

/-- The rows after the cursor, or all of them where there is none, in the order of their ranks. -/
def beyond (rows : List α) (cursor : Option κ) : List α :=
  (rows.filter fun r => cursor.all fun c => decide (c < rank r)).insertionSort
    fun a b => rank a ≤ rank b

/-- Read a page of each of the tables, one after the other, until a page is the last one. The answer
is what was read and whether the end was reached. -/
def follow (limit : Nat) : List (List α) → Option κ → List α × Bool
  | [], _ => ([], false)
  | rows :: later, cursor =>
    let page := (beyond rank rows cursor).take limit
    if limit < (beyond rank rows cursor).length then
      let rest := follow limit later (page.getLast?.map rank)
      (page ++ rest.1, rest.2)
    else (page, true)

variable {rank} {rows : List α} {tables : List (List α)} {cursor : Option κ} {limit : Nat} {r : α}

theorem mem_beyond : r ∈ beyond rank rows cursor ↔ r ∈ rows ∧ ∀ c ∈ cursor, c < rank r := by
  rw [beyond, List.mem_insertionSort, List.mem_filter, Option.all_eq_true]
  simp only [decide_eq_true_eq]
  exact Iff.rfl

theorem sorted_beyond (distinct : (rows.map rank).Nodup) (cursor : Option κ) :
    (beyond rank rows cursor).Pairwise fun a b => rank a < rank b :=
  Paging.strictly_sorted (distinct.sublist (List.filter_sublist.map rank))

theorem follow_cons_of_more (more : limit < (beyond rank rows cursor).length) :
    follow rank limit (rows :: tables) cursor =
      ((beyond rank rows cursor).take limit ++
          (follow rank limit tables
            (((beyond rank rows cursor).take limit).getLast?.map rank)).1,
        (follow rank limit tables
          (((beyond rank rows cursor).take limit).getLast?.map rank)).2) := by
  rw [follow]
  exact if_pos more

theorem follow_cons_of_last (last : ¬ limit < (beyond rank rows cursor).length) :
    follow rank limit (rows :: tables) cursor = (beyond rank rows cursor, true) := by
  rw [follow]
  dsimp only
  rw [if_neg last, List.take_of_length_le (not_lt.mp last)]

/-- A page that is not the last one ends with a row, and that row parts what is on the page from
what is not. -/
theorem page_ends (distinct : (rows.map rank).Nodup) (some_asked : 0 < limit)
    (more : limit < (beyond rank rows cursor).length) :
    ∃ last, ((beyond rank rows cursor).take limit).getLast? = some last ∧
      last ∈ (beyond rank rows cursor).take limit ∧
      (∀ a ∈ (beyond rank rows cursor).take limit, rank a ≤ rank last) ∧
      ∀ a ∈ beyond rank rows cursor, rank a ≤ rank last →
        a ∈ (beyond rank rows cursor).take limit := by
  have nonempty : (beyond rank rows cursor).take limit ≠ [] := by
    rw [Ne, List.take_eq_nil_iff]
    rintro (none_asked | nothing)
    · omega
    · rw [nothing] at more
      exact absurd more (Nat.not_lt_zero limit)
  have ends := List.getLast?_eq_some_getLast nonempty
  have onPage := List.getLast_mem nonempty
  have sorted := sorted_beyond distinct cursor
  rw [← List.take_append_drop limit (beyond rank rows cursor)] at sorted
  obtain ⟨inPage, -, later⟩ := List.pairwise_append.mp sorted
  refine ⟨_, ends, onPage, ?_, ?_⟩
  · intro a listed
    obtain ⟨front, split⟩ := List.getLast?_eq_some_iff.mp ends
    rw [split] at inPage listed
    rcases List.mem_append.mp listed with before | is_last
    · exact le_of_lt ((List.pairwise_append.mp inPage).2.2 a before _ List.mem_cons_self)
    · rw [List.mem_singleton.mp is_last]
  · intro a listed upTo
    rw [← List.take_append_drop limit (beyond rank rows cursor)] at listed
    rcases List.mem_append.mp listed with here | dropped
    · exact here
    · exact absurd (later _ onPage a dropped) (not_lt.mpr upTo)

/-- What is read comes after the cursor, and nothing is read twice. -/
theorem follow_sorted (distinct : ∀ rows ∈ tables, (rows.map rank).Nodup) (some_asked : 0 < limit)
    (cursor : Option κ) :
    ((follow rank limit tables cursor).1.Pairwise fun a b => rank a < rank b) ∧
      ∀ r ∈ (follow rank limit tables cursor).1, ∀ c ∈ cursor, c < rank r := by
  induction tables generalizing cursor with
  | nil => exact ⟨List.Pairwise.nil, fun r listed => absurd listed List.not_mem_nil⟩
  | cons rows tables ih =>
    have here := distinct rows List.mem_cons_self
    by_cases more : limit < (beyond rank rows cursor).length
    · obtain ⟨last, ends, onPage, least, -⟩ := page_ends here some_asked more
      obtain ⟨sorted, after⟩ := ih (fun rows later => distinct rows (List.mem_cons_of_mem _ later))
        (some (rank last))
      rw [follow_cons_of_more more, ends]
      refine ⟨List.pairwise_append.mpr ⟨(sorted_beyond here cursor).sublist
        (List.take_sublist _ _), sorted, ?_⟩, ?_⟩
      · intro a early b late
        exact lt_of_le_of_lt (least a early) (after b late _ rfl)
      · intro r listed c given
        rcases List.mem_append.mp listed with early | late
        · exact (mem_beyond.mp (List.mem_of_mem_take early)).2 c given
        · exact ((mem_beyond.mp (List.mem_of_mem_take onPage)).2 c given).trans
            (after r late _ rfl)
    · rw [follow_cons_of_last more]
      exact ⟨sorted_beyond here cursor, fun r listed => (mem_beyond.mp listed).2⟩

theorem follow_sound (read : r ∈ (follow rank limit tables cursor).1) : ∃ rows ∈ tables, r ∈ rows := by
  induction tables generalizing cursor with
  | nil => exact absurd read List.not_mem_nil
  | cons rows tables ih =>
    by_cases more : limit < (beyond rank rows cursor).length
    · rw [follow_cons_of_more more] at read
      rcases List.mem_append.mp read with early | late
      · exact ⟨rows, List.mem_cons_self, (mem_beyond.mp (List.mem_of_mem_take early)).1⟩
      · obtain ⟨table, listed, there⟩ := ih late
        exact ⟨table, List.mem_cons_of_mem _ listed, there⟩
    · rw [follow_cons_of_last more] at read
      exact ⟨rows, List.mem_cons_self, (mem_beyond.mp read).1⟩

theorem follow_complete (distinct : ∀ rows ∈ tables, (rows.map rank).Nodup) (some_asked : 0 < limit)
    (there : ∀ rows ∈ tables, r ∈ rows) (after : ∀ c ∈ cursor, c < rank r)
    (ended : (follow rank limit tables cursor).2 = true) :
    r ∈ (follow rank limit tables cursor).1 := by
  induction tables generalizing cursor with
  | nil => exact absurd ended Bool.false_ne_true
  | cons rows tables ih =>
    have here := mem_beyond.mpr ⟨there rows List.mem_cons_self, after⟩
    by_cases more : limit < (beyond rank rows cursor).length
    · obtain ⟨last, ends, -, -, kept⟩ :=
        page_ends (distinct rows List.mem_cons_self) some_asked more
      rw [follow_cons_of_more more, ends] at ended ⊢
      refine List.mem_append.mpr ?_
      rcases le_or_gt (rank r) (rank last) with upTo | later
      · exact .inl (kept r here upTo)
      · refine .inr (ih (fun rows listed => distinct rows (List.mem_cons_of_mem _ listed))
          (fun rows listed => there rows (List.mem_cons_of_mem _ listed)) ?_ ended)
        rintro c ⟨⟩
        exact later
    · rw [follow_cons_of_last more]
      exact here

/-- As long as the end is not reached every page is full. -/
theorem length_follow (unfinished : (follow rank limit tables cursor).2 = false) :
    (follow rank limit tables cursor).1.length = tables.length * limit := by
  induction tables generalizing cursor with
  | nil => rw [List.length_nil, Nat.zero_mul]; rfl
  | cons rows tables ih =>
    by_cases more : limit < (beyond rank rows cursor).length
    · rw [follow_cons_of_more more] at unfinished ⊢
      rw [List.length_append, ih unfinished, List.length_take, Nat.min_eq_left more.le,
        List.length_cons, Nat.succ_mul, Nat.add_comm]
    · rw [follow_cons_of_last more] at unfinished
      cases unfinished

theorem follow_ends (distinct : ∀ rows ∈ tables, (rows.map rank).Nodup) (some_asked : 0 < limit)
    {all : List α} (within : ∀ rows ∈ tables, rows ⊆ all) (pages : all.length < tables.length) :
    (follow rank limit tables cursor).2 = true := by
  by_contra unfinished
  have full := length_follow (Bool.eq_false_iff.mpr unfinished)
  have once : (follow rank limit tables cursor).1.Nodup :=
    (follow_sorted distinct some_asked cursor).1.imp fun less same =>
      absurd less (by rw [same]; exact lt_irrefl _)
  have inside : (follow rank limit tables cursor).1 ⊆ all := by
    intro r read
    obtain ⟨rows, listed, there⟩ := follow_sound read
    exact within rows listed there
  have few := (List.subperm_of_subset once inside).length_le
  have many : tables.length ≤ tables.length * limit := Nat.le_mul_of_pos_right _ some_asked
  omega

end Piltover.Foundation.Cursors
