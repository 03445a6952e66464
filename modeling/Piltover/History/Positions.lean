/- source: piltover/app/handlers/messages/history.py
   digest: The positions of found messages among all that are found, one for each request. -/

import Piltover.Failure
import Piltover.History.Window

set_option autoImplicit false

namespace Piltover.History

open Foundation Foundation.Paging

structure SearchResultPosition where
  msgId : Nat
  date : Int
  offset : Nat
  deriving DecidableEq, Repr

structure SearchResultsPositions where
  count : Nat
  positions : List SearchResultPosition
  deriving DecidableEq, Repr

/-- What is searched: a peer, by a filter and, in the conversation of a user with themselves, the
peer that a message was saved from. -/
structure MediaSearch where
  peer : Peer
  filter : MessagesFilter
  savedPeerId : Option Nat
  deriving DecidableEq, Repr

def positionOf (found : MessageRef × Nat) : SearchResultPosition :=
  ⟨found.1.id, found.1.content.date, found.2⟩

namespace Db

variable (db : Db) (userId : Nat) (search : MediaSearch)

/-- The rows of `query`. -/
def foundBy (query : MessageRef → Bool) : List MessageRef :=
  db.refs.rows.filter fun r => r.peerId == search.peer.id && query r &&
    search.savedPeerId.all fun saved =>
      search.peer.type != .self || r.content.savedPeerId == some saved

/-- `get_search_results_positions`; an `offset_id` of 0 is not given. -/
def getSearchResultsPositions (offsetId limit : Int) : Except Failure SearchResultsPositions :=
  if search.filter = .empty ∨ search.filter = .myMentions then
    .error (.rpc 400 "FILTER_NOT_SUPPORTED")
  else
    match db.messageFilterToQuery userId search.filter (some search.peer) with
    | none => .error (.rpc 400 "FILTER_NOT_SUPPORTED")
    | some query =>
      let rows := db.foundBy search query
      let offsetIdOffset :=
        if offsetId ≠ 0 then rows.countP fun r => decide (offsetId ≤ r.id) else 0
      let older := if offsetId ≠ 0 then rows.filter fun r => decide ((r.id : Int) < offsetId) else rows
      let limit := (min 1 (max 100 limit)).toNat
      .ok {
        count := rows.length
        positions := ((newest MessageRef.id older limit).zipIdx offsetIdOffset).map positionOf }

/-! ### What is asked for -/

def wholeHistory : Arguments := ⟨0, 0, 0, 100, 0, 0, 0, 0, none, none, none, false, false, 0, 0⟩

def visible (query : MessageRef → Bool) : List MessageRef :=
  (db.foundBy search query).filter (db.matchesQuery userId (.peer search.peer) wholeHistory)

/-- The first `limit` messages below the offset, with their places among all. -/
def positionsAsked (rows : List MessageRef) (offsetId limit : Int) : SearchResultsPositions where
  count := rows.length
  positions := (((descending rows).zipIdx.drop (newerCount offsetId rows)).take limit.toNat).map positionOf

/-- The answers to requests that each go on from the last message of the one before. -/
def positionPages (limit : Int) : Nat → Int → List SearchResultPosition
  | 0, _ => []
  | fuel + 1, offsetId =>
    match db.getSearchResultsPositions userId search offsetId limit with
    | .error _ => []
    | .ok found =>
      match found.positions.getLast? with
      | none => []
      | some last => found.positions ++ positionPages limit fuel last.msgId

end Db

section

variable {db : Db} {userId : Nat} {search : MediaSearch} {query : MessageRef → Bool}
  {rows : List MessageRef}

theorem zipIdx_drop {α : Type} {l : List α} {n : Nat} (within : n ≤ l.length) :
    l.zipIdx.drop n = (l.drop n).zipIdx n := by
  have split := @List.zipIdx_append α (l.take n) (l.drop n) 0
  rw [List.take_append_drop, List.length_take_of_le within, Nat.zero_add] at split
  have long : ((l.take n).zipIdx 0).length = n := by
    rw [List.length_zipIdx, List.length_take_of_le within]
  rw [split, List.drop_append_of_le_length (Nat.le_of_eq long.symm), List.drop_of_length_le (Nat.le_of_eq long),
    List.nil_append]

theorem zipIdx_take {α : Type} (l : List α) (n start : Nat) :
    (l.zipIdx start).take n = (l.take n).zipIdx start := by
  induction l generalizing n start with
  | nil => rw [List.take_nil, List.zipIdx_nil, List.take_nil]
  | cons a l ih =>
    cases n with
    | zero => rfl
    | succ n => rw [List.zipIdx_cons, List.take_succ_cons, List.take_succ_cons, List.zipIdx_cons, ih]

theorem newerCount_le (offsetId : Int) : newerCount offsetId rows ≤ (descending rows).length := by
  rw [newerCount, (perm_descending rows).length_eq]
  split
  · exact Nat.zero_le _
  · exact List.countP_le_length

theorem newest_older (distinct : (rows.map MessageRef.id).Nodup) (offsetId : Int) (limit : Nat) :
    newest MessageRef.id
        (if offsetId ≠ 0 then rows.filter fun r => decide ((r.id : Int) < offsetId) else rows) limit =
      ((descending rows).drop (newerCount offsetId rows)).take limit := by
  by_cases none_ : offsetId = 0
  · rw [if_neg (not_not.mpr none_), newerCount, if_pos none_, List.drop_zero, newest_eq_take]
    rfl
  · rw [if_pos none_, older_eq_drop distinct, newerCount, if_neg none_]

/-- The filter is one that this request takes. -/
def MediaSearch.Supported (db : Db) (userId : Nat) (search : MediaSearch) (query : MessageRef → Bool) : Prop :=
  search.filter ≠ .empty ∧ search.filter ≠ .myMentions ∧
    db.messageFilterToQuery userId search.filter (some search.peer) = some query

theorem distinct_foundBy : ((db.foundBy search query).map MessageRef.id).Nodup :=
  db.refs.nodup_filter _

theorem getSearchResultsPositions_eq (supported : search.Supported db userId query)
    (offsetId limit : Int) :
    db.getSearchResultsPositions userId search offsetId limit =
      .ok (Db.positionsAsked (db.foundBy search query) offsetId 1) := by
  obtain ⟨some_, other, is⟩ := supported
  have one : (min 1 (max 100 limit)).toNat = 1 := by
    have large : min 1 (max 100 limit) = 1 := by omega
    rw [large]
    rfl
  have count : (if offsetId ≠ 0 then
      (db.foundBy search query).countP fun r => decide (offsetId ≤ r.id) else 0) =
        newerCount offsetId (db.foundBy search query) := by
    rw [newerCount, ite_not]
  rw [Db.getSearchResultsPositions, if_neg (not_or.mpr ⟨some_, other⟩), is]
  dsimp only
  rw [one, count, newest_older distinct_foundBy, Db.positionsAsked, zipIdx_drop (newerCount_le _),
    ← zipIdx_take]
  rfl

/-- Everything that is found may be seen by the user. -/
def AllVisible (db : Db) (userId : Nat) (search : MediaSearch) (query : MessageRef → Bool) : Prop :=
  ∀ r ∈ db.foundBy search query,
    db.matchesQuery userId (.peer search.peer) Db.wholeHistory r = true

theorem visible_eq (all : AllVisible db userId search query) :
    db.visible userId search query = db.foundBy search query := List.filter_eq_self.mpr all

theorem allVisible_of_length
    (long : (db.foundBy search query).length = (db.visible userId search query).length) :
    AllVisible db userId search query := by
  have same := List.length_filter_eq_length_iff.mp long.symm
  exact same

/-- The answer is the list of the messages asked for. -/
def AnswersRight (db : Db) (userId : Nat) (search : MediaSearch) (query : MessageRef → Bool)
    (offsetId limit : Int) : Prop :=
  db.getSearchResultsPositions userId search offsetId limit =
    .ok (Db.positionsAsked (db.visible userId search query) offsetId limit)

theorem positionsAsked_one_iff {offsetId limit : Int} (positive : 1 ≤ limit) :
    Db.positionsAsked rows offsetId 1 = Db.positionsAsked rows offsetId limit ↔
      limit = 1 ∨ rows.length ≤ newerCount offsetId rows + 1 := by
  have all := (perm_descending rows).length_eq
  have left : ((descending rows).zipIdx.drop (newerCount offsetId rows)).length =
      rows.length - newerCount offsetId rows := by
    rw [List.length_drop, List.length_zipIdx, all]
  rw [Db.positionsAsked, Db.positionsAsked, SearchResultsPositions.mk.injEq]
  generalize (descending rows).zipIdx.drop (newerCount offsetId rows) = older at left ⊢
  constructor
  · rintro ⟨-, same⟩
    have lengths := congrArg List.length same
    rw [List.length_map, List.length_map, List.length_take, List.length_take] at lengths
    omega
  · rintro (rfl | few)
    · exact ⟨rfl, rfl⟩
    · have short : older.length ≤ 1 := by omega
      refine ⟨rfl, ?_⟩
      rw [List.take_of_length_le (by omega), List.take_of_length_le (by omega)]

theorem answersRight_iff (supported : search.Supported db userId query) {offsetId limit : Int}
    (positive : 1 ≤ limit) :
    AnswersRight db userId search query offsetId limit ↔
      AllVisible db userId search query ∧
        (limit = 1 ∨ (db.foundBy search query).length ≤
          newerCount offsetId (db.foundBy search query) + 1) := by
  rw [AnswersRight, getSearchResultsPositions_eq supported]
  constructor
  · intro right
    have same := Except.ok.inj right
    have all : AllVisible db userId search query :=
      allVisible_of_length (congrArg SearchResultsPositions.count same)
    rw [visible_eq all] at same
    exact ⟨all, (positionsAsked_one_iff positive).mp same⟩
  · rintro ⟨all, few⟩
    rw [visible_eq all, (positionsAsked_one_iff positive).mpr few]

/-! ### One request after the other -/

theorem newerCount_of_drop (distinct : (rows.map MessageRef.id).Nodup) {n : Nat} {r : MessageRef}
    {rest : List MessageRef} (stands : (descending rows).drop n = r :: rest) (positive : 0 < r.id) :
    newerCount r.id rows = n + 1 := by
  have sorted := sorted_descending distinct
  have within : n < (descending rows).length := by
    by_contra beyond
    rw [List.drop_of_length_le (Nat.not_lt.mp beyond)] at stands
    cases stands
  rw [← List.take_append_drop n (descending rows), stands] at sorted
  obtain ⟨-, behind, across⟩ := List.pairwise_append.mp sorted
  have newer : ((descending rows).take n).countP (fun s => decide ((r.id : Int) ≤ s.id)) = n := by
    rw [List.countP_eq_length.mpr, List.length_take_of_le (Nat.le_of_lt within)]
    intro s before
    have less := across s before r List.mem_cons_self
    exact decide_eq_true (by omega)
  have older : rest.countP (fun s => decide ((r.id : Int) ≤ s.id)) = 0 := by
    rw [List.countP_eq_zero]
    intro s after
    have less := (List.pairwise_cons.mp behind).1 s after
    rw [decide_eq_true_eq]
    omega
  have here : (r :: rest).countP (fun s => decide ((r.id : Int) ≤ s.id)) = 1 := by
    rw [List.countP_cons, older, Nat.zero_add]
    exact if_pos (decide_eq_true (Int.le_refl _))
  rw [newerCount, if_neg (by omega), ← (perm_descending rows).countP_eq,
    ← List.take_append_drop n (descending rows), stands, List.countP_append, newer, here]

theorem positionPages_from (supported : search.Supported db userId query)
    (positive : ∀ r ∈ db.refs, 0 < r.id) (limit : Int) {fuel : Nat} {offsetId : Int}
    (enough : (db.foundBy search query).length - newerCount offsetId (db.foundBy search query) < fuel) :
    db.positionPages userId search limit fuel offsetId =
      ((descending (db.foundBy search query)).zipIdx.drop
        (newerCount offsetId (db.foundBy search query))).map positionOf := by
  induction fuel generalizing offsetId with
  | zero => exact absurd enough (Nat.not_lt_zero _)
  | succ fuel ih =>
    have all := (perm_descending (db.foundBy search query)).length_eq
    have within : newerCount offsetId (db.foundBy search query) ≤
        (descending (db.foundBy search query)).length := newerCount_le offsetId
    rw [Db.positionPages, getSearchResultsPositions_eq supported, Db.positionsAsked]
    dsimp only
    rw [zipIdx_drop within]
    generalize counted : newerCount offsetId (db.foundBy search query) = n at *
    cases stands : (descending (db.foundBy search query)).drop n with
    | nil => rfl
    | cons r rest =>
      have listed : r ∈ descending (db.foundBy search query) :=
        List.mem_of_mem_drop (stands ▸ List.mem_cons_self)
      have stored : r ∈ db.refs :=
        (List.mem_filter.mp ((perm_descending _).mem_iff.mp listed)).1
      have next := newerCount_of_drop distinct_foundBy stands (positive r stored)
      have longer : n < (descending (db.foundBy search query)).length := by
        by_contra beyond
        rw [List.drop_of_length_le (Nat.not_lt.mp beyond)] at stands
        cases stands
      have behind : (descending (db.foundBy search query)).drop (n + 1) = rest := by
        rw [← List.drop_drop, stands]
        rfl
      have fewer : (db.foundBy search query).length -
          newerCount r.id (db.foundBy search query) < fuel := by
        rw [next]
        omega
      have later := ih fewer
      rw [next, zipIdx_drop longer, behind] at later
      rw [List.zipIdx_cons, List.map_cons]
      change positionOf (r, n) :: db.positionPages userId search limit fuel r.id = _
      rw [later]

/-- The requests that go on from the last message list what the user may see. -/
def Enumerates (db : Db) (userId : Nat) (search : MediaSearch) (query : MessageRef → Bool)
    (limit : Int) : Prop :=
  ∀ fuel, db.refs.rows.length < fuel → db.positionPages userId search limit fuel 0 =
    (descending (db.visible userId search query)).zipIdx.map positionOf

theorem enumerates_iff (supported : search.Supported db userId query)
    (positive : ∀ r ∈ db.refs, 0 < r.id) (limit : Int) :
    Enumerates db userId search query limit ↔ AllVisible db userId search query := by
  have fewer : (db.foundBy search query).length ≤ db.refs.rows.length := List.length_filter_le _ _
  have pages {fuel : Nat} (enough : db.refs.rows.length < fuel) :
      db.positionPages userId search limit fuel 0 =
        (descending (db.foundBy search query)).zipIdx.map positionOf := by
    rw [positionPages_from supported positive limit (by omega), newerCount, if_pos rfl,
      List.drop_zero]
  constructor
  · intro lists
    have same := (pages (Nat.lt_succ_self _)).symm.trans (lists _ (Nat.lt_succ_self _))
    have lengths := congrArg List.length same
    rw [List.length_map, List.length_map, List.length_zipIdx, List.length_zipIdx,
      (perm_descending _).length_eq, (perm_descending _).length_eq] at lengths
    exact allVisible_of_length lengths
  · intro all fuel enough
    rw [visible_eq all, pages enough]

/-- An answer is right exactly when all that is found may be seen, and one position is asked for or
no more are left. Requests that go on from the last message list everything exactly when all that is
found may be seen. -/
theorem search_positions_iff (supported : search.Supported db userId query)
    (positive : ∀ r ∈ db.refs, 0 < r.id) {limit : Int} (limits : 1 ≤ limit ∧ limit ≤ 100) :
    (∀ offsetId, AnswersRight db userId search query offsetId limit ↔
      AllVisible db userId search query ∧
        (limit = 1 ∨ (db.foundBy search query).length ≤
          newerCount offsetId (db.foundBy search query) + 1)) ∧
    (Enumerates db userId search query limit ↔ AllVisible db userId search query) :=
  ⟨fun _ => answersRight_iff supported limits.1, enumerates_iff supported positive limit⟩

end

/-! ### The photos in the messages that a user saved -/

private def saves : Peer := ⟨9, some 2, .self, none, none, 0⟩

private def photo (id : Nat) : MessageRef :=
  ⟨id, 9, ⟨id, .regular, 2, [], 0, some ⟨.photo, some .photo⟩, false, none⟩, false, none, none⟩

private def photoDb : Db where
  peers := Table.insert Table.empty saves
  channels := .empty
  participants := .empty
  mentions := []
  readStates := []
  dialogs := []
  refs := Table.insert (Table.insert Table.empty (photo 1)) (photo 2)

private def photoSearch : MediaSearch := ⟨saves, .photos, none⟩

private def isPhoto (r : MessageRef) : Bool := r.hasMedia .photo

private theorem photos_positive : ∀ r ∈ photoDb.refs, 0 < r.id := by
  intro r listed
  rcases List.mem_cons.mp listed with rfl | later
  · decide
  · rw [List.mem_singleton.mp later]
    decide

theorem photo_positions :
    (∀ offsetId, AnswersRight photoDb 2 photoSearch isPhoto offsetId 1 ↔
      AllVisible photoDb 2 photoSearch isPhoto ∧
        ((1 : Int) = 1 ∨ (photoDb.foundBy photoSearch isPhoto).length ≤
          newerCount offsetId (photoDb.foundBy photoSearch isPhoto) + 1)) ∧
    (Enumerates photoDb 2 photoSearch isPhoto 1 ↔ AllVisible photoDb 2 photoSearch isPhoto) :=
  search_positions_iff ⟨by decide, by decide, rfl⟩ photos_positive (by decide)

/-- Two photos are asked for, and one is answered. -/
theorem one_position : ¬ ∀ (db : Db) (userId : Nat) (search : MediaSearch) (query : MessageRef → Bool)
    (offsetId limit : Int), search.Supported db userId query → (∀ r ∈ db.refs, 0 < r.id) →
      1 ≤ limit ∧ limit ≤ 100 → AnswersRight db userId search query offsetId limit := by
  intro right
  have here := right photoDb 2 photoSearch isPhoto 0 2 ⟨by decide, by decide, rfl⟩ photos_positive
    (by decide)
  revert here
  rw [AnswersRight]
  decide

end Piltover.History
