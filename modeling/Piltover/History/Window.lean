/- source: piltover/app/handlers/messages/history.py
   digest: Which messages a request selects by its offsets, and that paging reads all of them. -/

import Mathlib.Data.List.Sort
import Piltover.Foundation.Paging
import Piltover.History.Queries

set_option autoImplicit false

namespace Piltover.History

open Foundation Foundation.Paging

/-! ### Selecting -/

/-- `max(min(100, limit), 1)`. -/
def clamped (limit : Int) : Nat := (max (min 100 limit) 1).toNat

/-- The rows among `rows` that the offsets of a request select; `offset_id` may be any integer. -/
def window (offsetId addOffset limit : Int) (rows : List MessageRef) : List MessageRef :=
  let limit := clamped limit
  if 0 ≤ addOffset then
    let rows := rows.filter fun r => offsetId == 0 || decide ((r.id : Int) < offsetId)
    (newest MessageRef.id rows (addOffset.toNat + limit)).drop addOffset.toNat
  else
    let after := oldest MessageRef.id (rows.filter fun r => decide (offsetId ≤ r.id))
      (min addOffset.natAbs limit)
    if limit ≤ after.length then descending after
    else
      let before := newest MessageRef.id (rows.filter fun r => decide ((r.id : Int) < offsetId))
        (limit - after.length)
      descending (before ++ after)

namespace Db

variable (db : Db) (userId : Nat) (scope : Scope) (a : Arguments)

/-- The rows that match the filters; these only ask whether there is an offset. -/
def matching (offsetId : Int) : List MessageRef :=
  db.refs.rows.filter (db.matchesQuery userId scope { a with offsetId := offsetId.natAbs })

/-- `get_messages_query_internal`, with the offset of the request. -/
def selectMessages (offsetId : Int) : List MessageRef :=
  window offsetId a.addOffset a.limit (db.matching userId scope a offsetId)

end Db

/-! ### The window that is asked for -/

/-- How many messages are from `offset_id` on. -/
def newerCount (offsetId : Int) (rows : List MessageRef) : Nat :=
  if offsetId = 0 then 0 else rows.countP fun r => decide (offsetId ≤ r.id)

def windowStart (offsetId addOffset limit : Int) (rows : List MessageRef) : Nat :=
  if 0 ≤ addOffset then newerCount offsetId rows + addOffset.toNat
  else newerCount offsetId rows -
    min (min addOffset.natAbs (clamped limit)) (newerCount offsetId rows)

/-- The part of the descending messages that starts there and is as long as the limit. -/
def windowAsked (offsetId addOffset limit : Int) (rows : List MessageRef) : List MessageRef :=
  ((descending rows).drop (windowStart offsetId addOffset limit rows)).take (clamped limit)

theorem clamped_pos (limit : Int) : 0 < clamped limit := by
  rw [clamped]
  omega

theorem perm_descending (rows : List MessageRef) : (descending rows).Perm rows := perm_newest rows

section

variable {rows : List MessageRef} (distinct : (rows.map MessageRef.id).Nodup)

include distinct

theorem sorted_descending : (descending rows).Pairwise fun r s => s.id < r.id :=
  sorted_newest distinct _

private theorem falls (offsetId : Int) : (descending rows).Pairwise fun r s =>
    decide (offsetId ≤ s.id) = true → decide (offsetId ≤ r.id) = true := by
  refine (sorted_descending distinct).imp fun {r s} less here => ?_
  rw [decide_eq_true_iff] at here ⊢
  omega

theorem older_eq_drop (offsetId : Int) (limit : Nat) :
    newest MessageRef.id (rows.filter fun r => decide ((r.id : Int) < offsetId)) limit =
      ((descending rows).drop (rows.countP fun r => decide (offsetId ≤ r.id))).take limit := by
  have turned : (fun r : MessageRef => decide ((r.id : Int) < offsetId)) =
      fun r => !decide (offsetId ≤ r.id) := by
    funext r
    rw [← decide_not]
    exact decide_eq_decide.mpr (not_le).symm
  rw [newest_filter, turned]
  change (List.filter _ (descending rows)).take limit = _
  rw [filter_not_eq_drop (falls distinct offsetId), (perm_descending rows).countP_eq]

private theorem newer_eq_take (offsetId : Int) (limit : Nat) :
    oldest MessageRef.id (rows.filter fun r => decide (offsetId ≤ r.id)) limit =
      (((descending rows).take (rows.countP fun r => decide (offsetId ≤ r.id))).drop
        ((rows.countP fun r => decide (offsetId ≤ r.id)) - limit)).reverse := by
  have long : ((rows.filter fun r => decide (offsetId ≤ r.id)).length) =
      rows.countP fun r => decide (offsetId ≤ r.id) := List.countP_eq_length_filter.symm
  have some_rows : rows.countP (fun r => decide (offsetId ≤ r.id)) ≤ (descending rows).length := by
    rw [(perm_descending rows).length_eq]
    exact List.countP_le_length
  have front : newest MessageRef.id (rows.filter fun r => decide (offsetId ≤ r.id))
      (rows.filter fun r => decide (offsetId ≤ r.id)).length =
      (descending rows).take (rows.countP fun r => decide (offsetId ≤ r.id)) := by
    rw [newest_filter, long]
    change (List.filter _ (descending rows)).take _ = _
    rw [filter_eq_take (falls distinct offsetId), (perm_descending rows).countP_eq, List.take_take,
      Nat.min_self]
  rw [oldest_eq_reverse (distinct.sublist (List.filter_sublist.map _)), front, List.take_reverse,
    List.length_take, Nat.min_eq_left some_rows]

private theorem descending_of_perm {part l : List MessageRef}
    (among : part.Sublist (descending rows))
    (same : l.Perm part) : descending l = part := by
  have sorted : part.Pairwise fun r s => s.id < r.id := (sorted_descending distinct).sublist among
  have apart : (l.map MessageRef.id).Nodup := by
    rw [(same.map MessageRef.id).nodup_iff]
    exact List.pairwise_map.mpr (sorted.imp fun less => Nat.ne_of_gt less)
  rw [descending, newest_of_perm apart same sorted, same.length_eq, List.take_length]

theorem window_of_negative {offsetId addOffset limit : Int} (negative : addOffset < 0) :
    window offsetId addOffset limit rows =
      ((descending rows).drop ((rows.countP fun r => decide (offsetId ≤ r.id)) -
        min addOffset.natAbs (clamped limit))).take (clamped limit) := by
  have some_rows : rows.countP (fun r => decide (offsetId ≤ r.id)) ≤ (descending rows).length := by
    rw [(perm_descending rows).length_eq]
    exact List.countP_le_length
  rw [window, if_neg (not_le.mpr negative), newer_eq_take distinct]
  simp only [older_eq_drop distinct, List.length_reverse, List.length_drop, List.length_take,
    Nat.min_eq_left some_rows]
  generalize clamped limit = size
  generalize hk : (rows.countP fun r => decide (offsetId ≤ r.id)) - min addOffset.natAbs size = k
  generalize hp : (rows.countP fun r => decide (offsetId ≤ r.id)) = p at hk
  have newer : ((descending rows).take p).drop k = ((descending rows).drop k).take (p - k) :=
    List.drop_take
  have among : (((descending rows).drop k).take size).Sublist (descending rows) :=
    (List.take_sublist _ _).trans (List.drop_sublist _ _)
  split
  · rename_i full
    have exactly : p - k = size := by omega
    refine descending_of_perm distinct among ?_
    rw [newer, exactly]
    exact List.reverse_perm _
  · rename_i few
    refine descending_of_perm distinct among ?_
    have parts : ((descending rows).drop k).take size =
        ((descending rows).drop k).take (p - k) ++ ((descending rows).drop p).take (size - (p - k)) := by
      have there : p - k + (size - (p - k)) = size := by omega
      have behind : k + (p - k) = p := by omega
      conv_lhs => rw [← there, List.take_add, List.drop_drop, behind]
    rw [newer, parts]
    exact List.perm_append_comm.trans ((List.reverse_perm _).append_right _)

theorem window_of_nonneg {offsetId addOffset limit : Int} (positive : 0 ≤ addOffset) :
    window offsetId addOffset limit rows = windowAsked offsetId addOffset limit rows := by
  rw [window, if_pos positive, windowAsked, windowStart, if_pos positive, newerCount]
  by_cases zero : offsetId = 0
  · subst zero
    rw [if_pos rfl, Nat.zero_add]
    have all : (rows.filter fun r => (0 : Int) == 0 || decide ((r.id : Int) < 0)) = rows :=
      List.filter_eq_self.mpr fun r _ => rfl
    dsimp only
    rw [all, newest_eq_take, List.drop_take, Nat.add_sub_cancel_left]
    rfl
  · have below : (rows.filter fun r => offsetId == 0 || decide ((r.id : Int) < offsetId)) =
        rows.filter fun r => decide ((r.id : Int) < offsetId) :=
      List.filter_congr fun r _ => by rw [beq_eq_false_iff_ne.mpr zero, Bool.false_or]
    dsimp only
    rw [if_neg zero, below, older_eq_drop distinct, List.drop_take, List.drop_drop,
      Nat.add_sub_cancel_left]

/-- The window is the one that is asked for, unless a negative offset is counted from no message and
does not reach over all of them. -/
theorem window_eq_iff {offsetId addOffset limit : Int} :
    window offsetId addOffset limit rows = windowAsked offsetId addOffset limit rows ↔
      offsetId ≠ 0 ∨ 0 ≤ addOffset ∨ rows.length ≤ min addOffset.natAbs (clamped limit) := by
  rcases lt_or_ge addOffset 0 with negative | positive
  swap
  · exact iff_of_true (window_of_nonneg distinct positive) (.inr (.inl positive))
  have size_pos := clamped_pos limit
  have all := (perm_descending rows).length_eq
  rw [window_of_negative distinct negative, windowAsked, windowStart, if_neg (not_le.mpr negative),
    newerCount]
  generalize clamped limit = size at *
  by_cases zero : offsetId = 0
  · have every : (rows.countP fun r => decide (offsetId ≤ r.id)) = rows.length :=
      List.countP_eq_length.mpr fun r _ => decide_eq_true (by omega)
    rw [every, if_pos zero, Nat.zero_sub, List.drop_zero]
    constructor
    · intro same
      refine .inr (.inr ?_)
      by_contra long
      have first := congrArg (fun l => l[0]?) same
      simp only [List.getElem?_take_of_lt size_pos, List.getElem?_drop, Nat.add_zero] at first
      have there : 0 < (descending rows).length := by omega
      have later : rows.length - min addOffset.natAbs size < (descending rows).length := by omega
      rw [List.getElem?_eq_getElem later, List.getElem?_eq_getElem there] at first
      have less := List.pairwise_iff_getElem.mp (sorted_descending distinct) 0 _ there later
        (by omega)
      rw [Option.some.inj first] at less
      exact lt_irrefl _ less
    · rintro (absurd_zero | nonneg | short)
      · exact absurd zero absurd_zero
      · omega
      · rw [Nat.sub_eq_zero_of_le short, List.drop_zero]
  · rw [if_neg zero]
    refine iff_of_true ?_ (.inl zero)
    congr 2
    omega

theorem window_before {c : Nat} (some_message : c ≠ 0) (limit : Int) :
    window c 0 limit rows =
      ((descending rows).filter fun r => decide (r.id < c)).take (clamped limit) := by
  have turned : (fun r : MessageRef => decide (r.id < c)) = fun r => !decide ((c : Int) ≤ r.id) := by
    funext r
    rw [← decide_not]
    exact decide_eq_decide.mpr (by omega)
  rw [window_of_nonneg distinct (le_refl _), windowAsked, windowStart, if_pos (le_refl _),
    newerCount, if_neg (by omega), turned, filter_not_eq_drop (falls distinct c),
    (perm_descending rows).countP_eq]
  rfl

theorem window_first (limit : Int) :
    window 0 0 limit rows = (descending rows).take (clamped limit) := by
  rw [window_of_nonneg distinct (le_refl _), windowAsked, windowStart, if_pos (le_refl _),
    newerCount, if_pos rfl]
  rfl

end

theorem filter_older_than_last {l : List MessageRef} (sorted : l.Pairwise fun r s => s.id < r.id)
    {size : Nat} {last : MessageRef} (ends : (l.take size).getLast? = some last) :
    (l.filter fun r => decide (r.id < last.id)) = l.drop size := by
  obtain ⟨front, page⟩ := List.getLast?_eq_some_iff.mp ends
  rw [← List.take_append_drop size l] at sorted
  obtain ⟨inPage, -, later⟩ := List.pairwise_append.mp sorted
  conv_lhs => rw [← List.take_append_drop size l, List.filter_append]
  have none : ((l.take size).filter fun r => decide (r.id < last.id)) = [] := by
    rw [List.filter_eq_nil_iff]
    intro r listed
    rw [page] at listed inPage
    rcases List.mem_append.mp listed with before | is_last
    · have := (List.pairwise_append.mp inPage).2.2 r before last List.mem_cons_self
      simp only [decide_eq_true_eq]
      omega
    · rw [List.mem_singleton.mp is_last]
      simp
  have all : ((l.drop size).filter fun r => decide (r.id < last.id)) = l.drop size := by
    refine List.filter_eq_self.mpr fun r listed => decide_eq_true ?_
    refine later last ?_ r listed
    rw [page]
    exact List.mem_append_right _ List.mem_cons_self
  rw [none, all, List.nil_append]

/-! ### Paging -/

namespace Db

variable (db : Db) (userId : Nat) (scope : Scope) (a : Arguments)

/-- One page after the other, each from the last message of the one before it, until one is empty. -/
def readPages : Nat → Int → List MessageRef
  | 0, _ => []
  | fuel + 1, offsetId =>
    let page := db.selectMessages userId scope { a with addOffset := 0 } offsetId
    match page.getLast? with
    | none => page
    | some last => page ++ readPages fuel last.id

variable {db userId scope a}

theorem distinct_matching (offsetId : Int) :
    ((db.matching userId scope a offsetId).map MessageRef.id).Nodup :=
  db.refs.nodup_filter _

theorem matching_of_ne_zero {offsetId : Int} (given : offsetId ≠ 0) :
    db.matching userId scope a offsetId = db.matching userId scope a 1 := by
  have there : (offsetId.natAbs != 0) = true := bne_iff_ne.mpr (Int.natAbs_ne_zero.mpr given)
  refine List.filter_congr fun r _ => ?_
  simp only [Setting.matchesQuery, there]
  rfl

theorem matching_zero_subset : db.matching userId scope a 0 ⊆ db.matching userId scope a 1 := by
  intro r listed
  obtain ⟨stored, asked⟩ := List.mem_filter.mp listed
  refine List.mem_filter.mpr ⟨stored, ?_⟩
  simp only [Setting.matchesQuery, Bool.and_eq_true, Bool.or_eq_true] at asked ⊢
  obtain ⟨⟨⟨base, replies⟩, top⟩, available⟩ := asked
  refine ⟨⟨⟨base, ?_⟩, top⟩, available⟩
  rcases replies with reply | ⟨offset, -⟩
  · exact .inl reply
  · exact absurd offset (by decide)

theorem matching_zero_of_no_reply (whole : a.replyToId = 0) :
    db.matching userId scope a 0 = db.matching userId scope a 1 := by
  refine List.filter_congr fun r _ => ?_
  simp only [Setting.matchesQuery, whole]
  rfl

theorem readPages_from (positive : ∀ r ∈ db.refs, 0 < r.id) {c : Nat} (some_message : c ≠ 0)
    {fuel : Nat} (enough : ((descending (db.matching userId scope a 1)).filter
      fun r => decide (r.id < c)).length < fuel) :
    db.readPages userId scope a fuel c =
      (descending (db.matching userId scope a 1)).filter fun r => decide (r.id < c) := by
  induction fuel generalizing c with
  | zero => exact absurd enough (Nat.not_lt_zero _)
  | succ fuel ih =>
    have page : db.selectMessages userId scope { a with addOffset := 0 } c =
        ((descending (db.matching userId scope a 1)).filter fun r => decide (r.id < c)).take
          (clamped a.limit) := by
      rw [selectMessages, matching_of_ne_zero (by omega)]
      exact window_before (distinct_matching 1) some_message a.limit
    have sorted : ((descending (db.matching userId scope a 1)).filter
        fun r => decide (r.id < c)).Pairwise fun r s => s.id < r.id :=
      (sorted_descending (distinct_matching 1)).filter _
    rw [readPages, page]
    generalize held : (descending (db.matching userId scope a 1)).filter
      (fun r => decide (r.id < c)) = older at *
    cases ends : (older.take (clamped a.limit)).getLast? with
    | none =>
      rw [List.getLast?_eq_none_iff, List.take_eq_nil_iff] at ends
      have nothing := ends.resolve_left (Nat.ne_of_gt (clamped_pos a.limit))
      rw [nothing, List.take_nil]
    | some last =>
      have onPage : last ∈ older :=
        List.mem_of_mem_take (List.mem_of_getLast? ends)
      have among := List.mem_filter.mp (held ▸ onPage)
      have before : last.id < c := decide_eq_true_iff.mp among.2
      have stored : last ∈ db.refs :=
        (List.mem_filter.mp ((perm_descending _).mem_iff.mp among.1)).1
      have rest : ((descending (db.matching userId scope a 1)).filter
          fun r => decide (r.id < last.id)) = older.drop (clamped a.limit) := by
        rw [← filter_older_than_last sorted ends, ← held, List.filter_filter]
        refine List.filter_congr fun r _ => ?_
        rw [← Bool.decide_and]
        exact decide_eq_decide.mpr (by omega)
      have shorter : (older.drop (clamped a.limit)).length < fuel := by
        have := List.length_pos_of_mem onPage
        have := clamped_pos a.limit
        rw [List.length_drop]
        omega
      have some_last : last.id ≠ 0 := Nat.ne_of_gt (positive last stored)
      dsimp only
      rw [ih some_last (by rw [rest]; exact shorter), rest, List.take_append_drop]

end Db

/-- What is read page by page, with an empty first offset and no added one. -/
structure Db.ReadsAll (db : Db) (userId : Nat) (scope : Scope) (a : Arguments)
    (read : List MessageRef) : Prop where
  newestFirst : read.Pairwise fun r s => s.id < r.id
  /-- Every message that matches is read exactly once. -/
  once : ∀ r ∈ db.matching userId scope a 0, read.count r = 1
  asked : ∀ r ∈ read, r ∈ db.matching userId scope a 1
  /-- Nothing else is read; to replies, the message that they reply to may be added. -/
  whole : a.replyToId = 0 → read = descending (db.matching userId scope a 0)

theorem Db.readPages_all {db : Db} {userId : Nat} {scope : Scope} {a : Arguments}
    (positive : ∀ r ∈ db.refs, 0 < r.id) {fuel : Nat} (enough : db.refs.rows.length + 1 < fuel) :
    db.ReadsAll userId scope a (db.readPages userId scope a fuel 0) := by
  obtain ⟨fuel, rfl⟩ : ∃ n, fuel = n + 1 := ⟨fuel - 1, by omega⟩
  have page : db.selectMessages userId scope { a with addOffset := 0 } 0 =
      (descending (db.matching userId scope a 0)).take (clamped a.limit) :=
    window_first (distinct_matching 0) a.limit
  have sorted : (descending (db.matching userId scope a 0)).Pairwise fun r s => s.id < r.id :=
    sorted_descending (distinct_matching 0)
  have sorted' : (descending (db.matching userId scope a 1)).Pairwise fun r s => s.id < r.id :=
    sorted_descending (distinct_matching 1)
  have subset : db.matching userId scope a 0 ⊆ db.matching userId scope a 1 := matching_zero_subset
  rw [readPages, page]
  cases ends : ((descending (db.matching userId scope a 0)).take (clamped a.limit)).getLast? with
  | none =>
    rw [List.getLast?_eq_none_iff] at ends
    have nothing : descending (db.matching userId scope a 0) = [] :=
      (List.take_eq_nil_iff.mp ends).resolve_left (Nat.ne_of_gt (clamped_pos a.limit))
    have none_matches : ∀ r, r ∉ db.matching userId scope a 0 := by
      intro r listed
      rw [← (perm_descending _).mem_iff, nothing] at listed
      cases listed
    dsimp only
    rw [ends]
    exact ⟨List.Pairwise.nil, fun r listed => absurd listed (none_matches r),
      fun r listed => absurd listed List.not_mem_nil, fun _ => nothing.symm⟩
  | some last =>
    have onPage := List.mem_of_getLast? ends
    have first := (perm_descending _).mem_iff.mp (List.mem_of_mem_take onPage)
    have some_last : last.id ≠ 0 := Nat.ne_of_gt (positive last (List.mem_filter.mp first).1)
    have few : ((descending (db.matching userId scope a 1)).filter
        fun r => decide (r.id < last.id)).length < fuel := by
      have := List.length_filter_le (fun r => decide (r.id < last.id))
        (descending (db.matching userId scope a 1))
      have := (perm_descending (db.matching userId scope a 1)).length_eq
      have : (db.matching userId scope a 1).length ≤ db.refs.rows.length :=
        List.length_filter_le _ _
      omega
    have older := filter_older_than_last sorted ends
    dsimp only
    rw [readPages_from positive some_last few]
    have newestFirst : ((descending (db.matching userId scope a 0)).take (clamped a.limit) ++
        (descending (db.matching userId scope a 1)).filter fun r =>
          decide (r.id < last.id)).Pairwise fun r s => s.id < r.id := by
      obtain ⟨front, split⟩ := List.getLast?_eq_some_iff.mp ends
      have inPage := sorted.sublist (List.take_sublist (clamped a.limit) _)
      refine List.pairwise_append.mpr ⟨inPage, sorted'.filter _, fun r here s there => ?_⟩
      have behind := decide_eq_true_iff.mp (List.mem_filter.mp there).2
      rw [split] at here inPage
      rcases List.mem_append.mp here with before | is_last
      · exact behind.trans ((List.pairwise_append.mp inPage).2.2 r before last List.mem_cons_self)
      · rw [List.mem_singleton.mp is_last]
        exact behind
    refine ⟨newestFirst, ?_, ?_, ?_⟩
    · intro r listed
      refine List.count_eq_one_of_mem (newestFirst.imp fun less same => ?_) ?_
      · rw [same] at less
        exact lt_irrefl _ less
      · have among := (perm_descending _).mem_iff.mpr listed
        rw [← List.take_append_drop (clamped a.limit) (descending _), ← older,
          List.mem_append] at among
        refine List.mem_append.mpr (among.imp_right fun later => ?_)
        obtain ⟨-, behind⟩ := List.mem_filter.mp later
        exact List.mem_filter.mpr ⟨(perm_descending _).mem_iff.mpr (subset listed), behind⟩
    · intro r read
      rcases List.mem_append.mp read with here | later
      · exact subset ((perm_descending _).mem_iff.mp (List.mem_of_mem_take here))
      · exact (perm_descending _).mem_iff.mp (List.mem_of_mem_filter later)
    · intro no_reply
      rw [← matching_zero_of_no_reply no_reply, older, List.take_append_drop]

/-- The messages that a request selects are the window that it asks for, unless a negative offset is
counted from no message and does not reach over all of the messages. Paging, which adds no offset,
reads every message once. -/
theorem Db.selectMessages_right_iff (db : Db) (userId : Nat) (scope : Scope) (a : Arguments)
    (positive : ∀ r ∈ db.refs, 0 < r.id) :
    (∀ offsetId : Int,
      db.selectMessages userId scope a offsetId =
          windowAsked offsetId a.addOffset a.limit (db.matching userId scope a offsetId) ↔
        offsetId ≠ 0 ∨ 0 ≤ a.addOffset ∨
          (db.matching userId scope a offsetId).length ≤
            min a.addOffset.natAbs (clamped a.limit)) ∧
      ∀ fuel, db.refs.rows.length + 1 < fuel →
        db.ReadsAll userId scope a (db.readPages userId scope a fuel 0) :=
  ⟨fun offsetId => window_eq_iff (distinct_matching offsetId),
    fun _ enough => readPages_all positive enough⟩

private def notes : Peer := ⟨9, some 2, .self, none, none, 0⟩

private def note (id : Nat) : MessageRef :=
  ⟨id, 9, ⟨id, .regular, 2, [], 0, none, false, none⟩, false, none, none⟩

private def notesDb : Db where
  peers := Table.insert Table.empty notes
  channels := .empty
  participants := .empty
  mentions := []
  readStates := []
  dialogs := []
  refs := Table.insert (Table.insert Table.empty (note 1)) (note 2)

/-- A page of one message with one message of the offset taken off, from no message. -/
private def latest : Arguments := ⟨0, 0, 0, 1, -1, 0, 0, 0, none, none, none, false, false, 0, 0⟩

theorem notes_right_iff :
    (∀ offsetId : Int,
      notesDb.selectMessages 2 (.peer notes) latest offsetId =
          windowAsked offsetId (-1) 1 (notesDb.matching 2 (.peer notes) latest offsetId) ↔
        offsetId ≠ 0 ∨ 0 ≤ (-1 : Int) ∨
          (notesDb.matching 2 (.peer notes) latest offsetId).length ≤ min 1 (clamped 1)) ∧
      notesDb.ReadsAll 2 (.peer notes) latest (notesDb.readPages 2 (.peer notes) latest 4 0) :=
  have right := Db.selectMessages_right_iff notesDb 2 (.peer notes) latest (by
    intro r listed
    rcases List.mem_cons.mp listed with rfl | later
    · decide
    · rw [List.mem_singleton.mp later]
      decide)
  ⟨right.1, right.2 4 (by decide)⟩

/-- From no message, a negative offset selects the oldest message and not the newest one. -/
theorem oldest_selected : ¬ ∀ (db : Db) (userId : Nat) (scope : Scope) (a : Arguments)
    (offsetId : Int), (∀ r ∈ db.refs, 0 < r.id) →
      db.selectMessages userId scope a offsetId =
        windowAsked offsetId a.addOffset a.limit (db.matching userId scope a offsetId) := by
  intro all
  have here := all notesDb 2 (.peer notes) latest 0 (by
    intro r listed
    rcases List.mem_cons.mp listed with rfl | later
    · decide
    · rw [List.mem_singleton.mp later]
      decide)
  revert here
  decide

end Piltover.History
