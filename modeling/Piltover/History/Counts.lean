/- source: piltover/app/handlers/messages/history.py,
     piltover/app/handlers/messages/saved_dialogs.py, piltover/app/handlers/messages/reactions.py
   digest: The numbers that are answered with a slice of the messages, and when they are right. -/

import Mathlib.Data.List.Perm.Subperm
import Piltover.History.Window

set_option autoImplicit false

namespace Piltover.History

open Foundation Foundation.Paging

/-! ### The requests -/

/-- The requests that are answered with slices. -/
inductive Slicing
  | getHistory
  | getSavedHistory (savedPeerId : Nat)
  | getReplies (replyToId : Nat)
  | getUnreadReactions
  deriving DecidableEq, Repr

/-- A request and the peer that it is resolved to. -/
structure SliceRequest where
  kind : Slicing
  peer : Peer
  maxId : Nat
  minId : Nat
  offsetId : Int
  limit : Int
  addOffset : Int
  /-- Saved messages are in the conversation of a user with themselves. -/
  own : ∀ savedPeerId, kind = .getSavedHistory savedPeerId → peer.type = .self
  /-- The thread begins with a message. -/
  rooted : kind ≠ .getReplies 0

/-- The arguments of `get_messages_query_internal`, without the offset. -/
def SliceRequest.arguments (request : SliceRequest) (userId : Nat) : Arguments where
  maxId := request.maxId
  minId := request.minId
  offsetId := 0
  limit := request.limit
  addOffset := request.addOffset
  fromUserId := match request.kind with
    | .getUnreadReactions => userId
    | _ => 0
  minDate := 0
  maxDate := 0
  q := none
  filter := none
  savedPeerId := match request.kind with
    | .getSavedHistory savedPeerId => some savedPeerId
    | _ => none
  unreadReactions := request.kind == .getUnreadReactions
  onlyMentions := false
  replyToId := match request.kind with
    | .getReplies replyToId => replyToId
    | _ => 0
  topMsgId := 0

structure CountedQuery where
  rows : List MessageRef
  limit : Option Nat
  offset : Nat

/-- `count`: the rows behind the offset, as many as the limit allows. -/
def CountedQuery.count (query : CountedQuery) : Int :=
  let rest : Int := query.rows.length - query.offset
  match query.limit with
  | none => rest
  | some limit => if limit < rest then limit else rest

/-- `filter(id__gte=…)`. -/
def CountedQuery.from (query : CountedQuery) (offsetId : Int) : CountedQuery :=
  { query with rows := query.rows.filter fun r => decide (offsetId ≤ r.id) }

/-- `Messages`, or a `MessagesSlice` with its count and `offset_id_offset`. -/
inductive MessagesAnswer
  | messages (messages : List MessageRef)
  | slice (messages : List MessageRef) (count offsetIdOffset : Int)
  deriving DecidableEq, Repr

def formatMessagesInternal (messages : List MessageRef) (offsetId : Int) (query : CountedQuery) :
    MessagesAnswer :=
  if query.count ≤ messages.length ∧ offsetId = 0 then .messages messages
  else .slice messages query.count (if offsetId ≠ 0 then (query.from offsetId).count else 0)

namespace Db

variable (db : Db) (userId : Nat) (request : SliceRequest)

def pageQuery : CountedQuery :=
  let a := request.arguments userId
  if 0 ≤ a.addOffset then {
    rows := (db.matching userId (.peer request.peer) a request.offsetId).filter fun r =>
      request.offsetId == 0 || decide ((r.id : Int) < request.offsetId)
    limit := some (clamped a.limit)
    offset := a.addOffset.toNat }
  else ⟨db.selectMessages userId (.peer request.peer) a request.offsetId, none, 0⟩

def inThread (replyToId : Nat) (r : MessageRef) : Bool :=
  r.replyToId == some replyToId || r.topMessageId == some replyToId

def countedQuery : CountedQuery :=
  let among (check : MessageRef → Bool) : CountedQuery :=
    ⟨db.refs.rows.filter fun r => r.peerId == request.peer.id && check r &&
      db.isAvailable userId request.peer r, none, 0⟩
  match request.kind with
  | .getHistory => among fun _ => true
  | .getSavedHistory savedPeerId => among fun r => r.content.savedPeerId == some savedPeerId
  | .getReplies replyToId => among fun r =>
    inThread replyToId r || (request.offsetId != 0 && r.id == replyToId)
  | .getUnreadReactions => db.pageQuery userId request

/-- `get_history`, `get_saved_history`, `get_replies` and `get_unread_reactions`. -/
def answerSlice : MessagesAnswer :=
  let messages := db.selectMessages userId (.peer request.peer) (request.arguments userId)
    request.offsetId
  if messages = [] then .messages []
  else formatMessagesInternal messages request.offsetId (db.countedQuery userId request)

/-! ### What the numbers should be -/

def proper (r : MessageRef) : Bool :=
  match request.kind with
  | .getHistory => r.content.type != .scheduled
  | .getSavedHistory savedPeerId =>
    r.content.type == .regular && r.content.savedPeerId == some savedPeerId
  | .getReplies replyToId => r.content.type != .scheduled && inThread replyToId r
  | .getUnreadReactions =>
    r.content.type == .regular && r.content.authorId == userId && r.content.authorReactionsUnread

def wanted : List MessageRef :=
  db.refs.rows.filter fun r => r.peerId == request.peer.id && proper userId request r &&
    db.isAvailable userId request.peer r

/-- The numbers are those of all the messages, and an answer without numbers has all of them. -/
def NumbersRight : MessagesAnswer → Prop
  | .messages messages => ∀ r ∈ db.wanted userId request, r ∈ messages
  | .slice _ count offsetIdOffset =>
    count = (db.wanted userId request).length ∧
      offsetIdOffset = newerCount request.offsetId (db.wanted userId request)

def PastEnd : Prop :=
  let rows := db.matching userId (.peer request.peer) (request.arguments userId) request.offsetId
  rows = [] ∨ 0 ≤ request.addOffset ∧
    (rows.length : Int) ≤ newerCount request.offsetId rows + request.addOffset

/-- What is counted is what the request is about; where the offsets leave nothing, so is nothing. -/
def CountsWanted : Prop :=
  (db.PastEnd userId request → db.wanted userId request = []) ∧
    (¬db.PastEnd userId request →
      ∀ r ∈ (db.countedQuery userId request).rows, proper userId request r = true)

end Db

section

variable {db : Db} {userId : Nat} {request : SliceRequest} {rows : List MessageRef}

theorem window_sublist (distinct : (rows.map MessageRef.id).Nodup) {offsetId addOffset limit : Int} :
    (window offsetId addOffset limit rows).Sublist (descending rows) := by
  rcases lt_or_ge addOffset 0 with negative | positive
  · rw [window_of_negative distinct negative]
    exact (List.take_sublist _ _).trans (List.drop_sublist _ _)
  · rw [window_of_nonneg distinct positive]
    exact (List.take_sublist _ _).trans (List.drop_sublist _ _)

theorem window_eq_nil_iff (distinct : (rows.map MessageRef.id).Nodup)
    {offsetId addOffset limit : Int} :
    window offsetId addOffset limit rows = [] ↔ rows = [] ∨
      0 ≤ addOffset ∧ (rows.length : Int) ≤ newerCount offsetId rows + addOffset := by
  have some_ := clamped_pos limit
  have long := (perm_descending rows).length_eq
  have few : rows.countP (fun r => decide (offsetId ≤ r.id)) ≤ rows.length := List.countP_le_length
  have none_ : rows = [] ↔ rows.length = 0 := List.length_eq_zero_iff.symm
  rcases lt_or_ge addOffset 0 with negative | positive
  · rw [window_of_negative distinct negative, List.take_eq_nil_iff, List.drop_eq_nil_iff, long, none_]
    omega
  · rw [window_of_nonneg distinct positive, windowAsked, windowStart, if_pos positive,
      List.take_eq_nil_iff, List.drop_eq_nil_iff, long, none_]
    omega

theorem selectMessages_sublist (a : Arguments) (offsetId : Int) (scope : Scope) :
    (db.selectMessages userId scope a offsetId).Sublist
      (descending (db.matching userId scope a offsetId)) :=
  window_sublist (Db.distinct_matching offsetId)

/-- The page holds messages that the request is about, and the one that a thread begins with only
when there is an offset. -/
theorem wanted_of_matching (other : request.kind ≠ .getUnreadReactions) {r : MessageRef}
    (listed : r ∈ db.matching userId (.peer request.peer) (request.arguments userId) 0) :
    r ∈ db.wanted userId request := by
  obtain ⟨stored, asked⟩ := List.mem_filter.mp listed
  refine List.mem_filter.mpr ⟨stored, ?_⟩
  unfold Db.proper
  simp only [Setting.matchesQuery, Setting.baseQuery, Setting.filterQuery, Setting.typeQuery,
    Setting.inScope, SliceRequest.arguments, Scope.asPeer] at asked ⊢
  cases kind : request.kind with
  | getHistory =>
    rw [kind] at asked
    simp only [Bool.false_eq_true, if_false, Bool.and_eq_true] at asked
    obtain ⟨⟨⟨⟨⟨⟨⟨⟨⟨here, -⟩, type⟩, -⟩, -⟩, -⟩, -⟩, -⟩, -⟩, available⟩ := asked
    simp only [Bool.and_eq_true]
    exact ⟨⟨here, type⟩, available⟩
  | getSavedHistory savedPeerId =>
    have own := request.own savedPeerId kind
    rw [kind] at asked
    simp only [Bool.false_eq_true, if_false, Bool.and_eq_true] at asked
    obtain ⟨⟨⟨⟨⟨⟨⟨⟨⟨here, -⟩, type⟩, -⟩, -⟩, saved⟩, -⟩, -⟩, -⟩, available⟩ := asked
    rw [own] at saved
    simp only [Bool.and_eq_true]
    exact ⟨⟨here, type, saved⟩, available⟩
  | getReplies replyToId =>
    have rooted : (replyToId == 0) = false := by
      refine beq_eq_false_iff_ne.mpr fun zero => request.rooted ?_
      rw [kind, zero]
    rw [kind] at asked
    simp only [Bool.false_eq_true, if_false, Bool.and_eq_true] at asked
    obtain ⟨⟨⟨⟨⟨⟨⟨⟨⟨here, -⟩, type⟩, -⟩, -⟩, -⟩, -⟩, thread⟩, -⟩, available⟩ := asked
    rw [rooted, Bool.false_or] at thread
    have replies : Db.inThread replyToId r = true := by
      rw [Db.inThread]
      rcases Bool.or_eq_true_iff.mp thread with reply | offset
      · exact reply
      · cases offset
    simp only [Bool.and_eq_true]
    exact ⟨⟨here, type, replies⟩, available⟩
  | getUnreadReactions => exact absurd kind other

theorem wanted_eq_filter (other : request.kind ≠ .getUnreadReactions) :
    db.wanted userId request =
      (db.countedQuery userId request).rows.filter (Db.proper userId request) := by
  have among (check : MessageRef → Bool)
      (covers : ∀ r, Db.proper userId request r = true → check r = true) :
      db.wanted userId request = (db.refs.rows.filter fun r => r.peerId == request.peer.id &&
        check r && db.isAvailable userId request.peer r).filter (Db.proper userId request) := by
    rw [List.filter_filter]
    refine List.filter_congr fun r _ => ?_
    cases is : Db.proper userId request r with
    | false => rw [Bool.and_false, Bool.false_and, Bool.false_and]
    | true => rw [covers r is, Bool.true_and]
  have is_proper (r : MessageRef) := @Db.proper.eq_def userId request r
  rw [Db.countedQuery]
  cases kind : request.kind with
  | getHistory => exact among _ fun _ _ => rfl
  | getSavedHistory savedPeerId =>
    refine among _ fun r is => ?_
    rw [is_proper, kind] at is
    exact (Bool.and_eq_true_iff.mp is).2
  | getReplies replyToId =>
    refine among _ fun r is => ?_
    rw [is_proper, kind] at is
    exact Bool.or_eq_true_iff.mpr (.inl (Bool.and_eq_true_iff.mp is).2)
  | getUnreadReactions => exact absurd kind other

theorem countedQuery_plain (other : request.kind ≠ .getUnreadReactions) :
    (db.countedQuery userId request).limit = none ∧ (db.countedQuery userId request).offset = 0 := by
  rw [Db.countedQuery]
  cases kind : request.kind with
  | getUnreadReactions => exact absurd kind other
  | _ => exact ⟨rfl, rfl⟩

theorem count_eq (other : request.kind ≠ .getUnreadReactions) :
    (db.countedQuery userId request).count = (db.countedQuery userId request).rows.length := by
  obtain ⟨limit, offset⟩ := @countedQuery_plain db userId request other
  rw [CountedQuery.count, limit, offset]
  exact Int.sub_zero _

theorem count_from_eq (other : request.kind ≠ .getUnreadReactions) (offsetId : Int) :
    ((db.countedQuery userId request).from offsetId).count =
      (db.countedQuery userId request).rows.countP fun r => decide (offsetId ≤ r.id) := by
  obtain ⟨limit, offset⟩ := @countedQuery_plain db userId request other
  rw [CountedQuery.count, CountedQuery.from, limit, offset, List.countP_eq_length_filter]
  exact Int.sub_zero _

theorem counted_length_iff (other : request.kind ≠ .getUnreadReactions) :
    (db.countedQuery userId request).rows.length = (db.wanted userId request).length ↔
      ∀ r ∈ (db.countedQuery userId request).rows, Db.proper userId request r = true := by
  rw [wanted_eq_filter other, eq_comm]
  exact List.length_filter_eq_length_iff

theorem page_subset_wanted (other : request.kind ≠ .getUnreadReactions)
    (start : request.offsetId = 0) :
    db.selectMessages userId (.peer request.peer) (request.arguments userId) request.offsetId ⊆
      db.wanted userId request := by
  intro r listed
  rw [start] at listed
  exact wanted_of_matching other
    ((perm_descending _).mem_iff.mp ((selectMessages_sublist _ _ _).subset listed))

theorem page_nodup : (db.selectMessages userId (.peer request.peer) (request.arguments userId)
    request.offsetId).Nodup := by
  have distinct := (perm_descending (db.matching userId (.peer request.peer)
    (request.arguments userId) request.offsetId)).nodup_iff.mpr
      (List.Nodup.of_map _ (Db.distinct_matching request.offsetId))
  exact distinct.sublist (selectMessages_sublist _ _ _)

theorem whole_of_count_le (other : request.kind ≠ .getUnreadReactions)
    (start : request.offsetId = 0)
    (few : (db.countedQuery userId request).rows.length ≤ (db.selectMessages userId
      (.peer request.peer) (request.arguments userId) request.offsetId).length) :
    (∀ r ∈ db.wanted userId request, r ∈ db.selectMessages userId (.peer request.peer)
        (request.arguments userId) request.offsetId) ∧
      ∀ r ∈ (db.countedQuery userId request).rows, Db.proper userId request r = true := by
  have part := List.subperm_of_subset (@page_nodup db userId request)
    (page_subset_wanted other start)
  have fewer : (db.wanted userId request).length ≤
      (db.countedQuery userId request).rows.length := by
    rw [wanted_eq_filter other]
    exact List.length_filter_le _ _
  have same := part.perm_of_length_le (fewer.trans few)
  refine ⟨fun r listed => same.mem_iff.mpr listed, (counted_length_iff other).mp ?_⟩
  have long := part.length_le
  omega

theorem numbersRight_format (other : request.kind ≠ .getUnreadReactions) :
    db.NumbersRight userId request (formatMessagesInternal
        (db.selectMessages userId (.peer request.peer) (request.arguments userId) request.offsetId)
        request.offsetId (db.countedQuery userId request)) ↔
      ∀ r ∈ (db.countedQuery userId request).rows, Db.proper userId request r = true := by
  rw [formatMessagesInternal, count_eq other]
  split
  case isTrue short =>
    obtain ⟨all, right⟩ := whole_of_count_le other short.2 (Int.ofNat_le.mp short.1)
    exact iff_of_true all right
  case isFalse =>
    rw [← counted_length_iff other]
    constructor
    · rintro ⟨count, -⟩
      exact Int.ofNat_inj.mp count
    · intro long
      have same : (db.countedQuery userId request).rows = db.wanted userId request := by
        rw [wanted_eq_filter other]
        exact (List.filter_eq_self.mpr ((counted_length_iff other).mp long)).symm
      refine ⟨by rw [long], ?_⟩
      rw [count_from_eq other, same, newerCount, ite_not]
      split <;> rfl

theorem page_of_unreadReactions (known : 0 < userId) (kind : request.kind = .getUnreadReactions) :
    db.selectMessages userId (.peer request.peer) (request.arguments userId) request.offsetId = [] := by
  have nothing : db.matching userId (.peer request.peer) (request.arguments userId)
      request.offsetId = [] := by
    refine List.filter_eq_nil_iff.mpr fun r _ asked => ?_
    have user : (userId == 0) = false := beq_eq_false_iff_ne.mpr (Nat.ne_of_gt known)
    have unread : (Slicing.getUnreadReactions == .getUnreadReactions) = true := rfl
    simp only [Setting.matchesQuery, Setting.baseQuery, Setting.rangeQuery,
      SliceRequest.arguments] at asked
    rw [kind] at asked
    simp only [Bool.false_eq_true, if_false, Bool.and_eq_true, user, Bool.false_or, unread,
      Bool.not_true] at asked
    obtain ⟨⟨⟨⟨⟨⟨-, ⟨⟨⟨⟨own, -⟩, -⟩, -⟩, -⟩⟩, -⟩, -, other⟩, -⟩, -⟩, -⟩ := asked
    exact bne_iff_ne.mp other (beq_iff_eq.mp own)
  have part := @selectMessages_sublist db userId (request.arguments userId) request.offsetId
    (.peer request.peer)
  rw [nothing] at part
  exact List.eq_nil_of_sublist_nil part

end

/-! ### The saved messages of a user, of which one is scheduled -/

private def selfPeer : Peer := ⟨9, some 2, .self, none, none, 0⟩

private def saving (id : Nat) (type : MessageType) : MessageRef :=
  ⟨id, 9, ⟨id, type, 2, [], 0, none, false, none⟩, false, none, none⟩

private def saved : Db where
  peers := Table.insert Table.empty selfPeer
  channels := .empty
  participants := .empty
  mentions := []
  readStates := []
  dialogs := []
  refs := Table.insert (Table.insert Table.empty (saving 1 .regular)) (saving 2 .scheduled)

private def newestSaved : SliceRequest where
  kind := .getHistory
  peer := selfPeer
  maxId := 0
  minId := 0
  offsetId := 0
  limit := 100
  addOffset := 0
  own := nofun
  rooted := nofun

end Piltover.History
