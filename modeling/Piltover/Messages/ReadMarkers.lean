/- source: piltover/app/handlers/messages/history.py, piltover/app/handlers/channels.py,
     piltover/app/utils/updates_manager.py
   digest: Which messages are said to be read when their contents or mentions are. -/

import Piltover.Messages.Reading

set_option autoImplicit false

namespace Piltover.Messages

open Piltover.Foundation

/-- The references that a query has found. -/
structure ValidRefs where
  rows : List MessageRef
  once : (rows.map MessageRef.id).Nodup

/-! ### What is unread -/

namespace Db

variable (db : Db) (userId : Nat) (r : MessageRef)

def unreadMention : Bool :=
  db.mentions.rows.any fun m =>
    m.userId == userId && m.contentId == r.contentId && m.unreadTargetId.isSome

def unreadMedia : Bool :=
  ((db.contents.get r.contentId).any fun content => content.readableMedia) &&
    !db.mediaReads.contains (userId, r.id)

def unreadReactions : Bool :=
  (db.contents.get r.contentId).any fun content =>
    content.authorId == some userId && content.authorReactionsUnread

def unreadState : Bool × Bool × Bool :=
  (db.unreadMention userId r, db.unreadMedia userId r, db.unreadReactions userId r)

def isUnread : Bool :=
  db.unreadMention userId r || db.unreadMedia userId r || db.unreadReactions userId r

end Db

/-! ### Reading contents, in parts -/

section

variable (db : Db) (userId : Nat) (refs : List MessageRef)

def mentionsRead : List MessageMention :=
  db.mentions.rows.filter fun m =>
    m.userId == userId && (refs.map MessageRef.contentId).contains m.contentId &&
      m.unreadTargetId.isSome

def refsWithMedia : List MessageRef :=
  (refs.filter fun r =>
    (db.contents.get r.contentId).any fun content => content.readableMedia).filter fun r =>
      !db.mediaReads.contains (userId, r.id)

def unreadReactionIds : List Nat :=
  (db.contents.rows.filter fun content =>
    (refs.map MessageRef.contentId).contains content.id && content.authorId == some userId &&
      content.authorReactionsUnread).map MessageContent.id

def refByContentId : OrderedDict Nat Nat := .ofPairs (refs.map fun r => (r.contentId, r.id))

def readIds : List Nat :=
  ((mentionsRead db userId refs).filterMap (fun m => (refByContentId refs).lookup m.contentId) ++
    (refsWithMedia db userId refs).map MessageRef.id).dedup

theorem id_of_mentionRead (m : MessageMention) :
    MessageMention.id { m with unreadTargetId := none } = m.id := rfl

theorem id_of_reactionsRead (content : MessageContent) :
    MessageContent.id { content with authorReactionsUnread := false } = content.id := rfl

def afterReading : Db :=
  { db with
    mentions := db.mentions.modify
      (fun m => ((mentionsRead db userId refs).map MessageMention.id).contains m.id)
      (fun m => { m with unreadTargetId := none }) id_of_mentionRead
    mediaReads := db.mediaReads ++ (refsWithMedia db userId refs).map fun r => (userId, r.id)
    contents := db.contents.modify
      (fun content => (unreadReactionIds db userId refs).contains content.id)
      (fun content => { content with authorReactionsUnread := false }) id_of_reactionsRead }

theorem readMessageContentsInternal_eq : readMessageContentsInternal db userId refs =
    if mentionsRead db userId refs = [] ∧ refsWithMedia db userId refs = [] ∧
      unreadReactionIds db userId refs = [] then (db, none)
    else (afterReading db userId refs,
      some (readIds db userId refs ++ unreadReactionIds db userId refs)) := rfl

end

/-! ### What is to be said -/

section

variable (db : Db) (userId : Nat)

/-- The identifiers are those of the references whose unread state has changed, each once. -/
def NamesRight (refs : ValidRefs) : Prop :=
  let result := readMessageContentsInternal db userId refs.rows
  (result.2.getD []).Nodup ∧ ∀ id, id ∈ result.2.getD [] ↔
    ∃ r ∈ refs.rows, r.id = id ∧ result.1.unreadState userId r ≠ db.unreadState userId r

/-- Nothing is left to be read by a second call. -/
def ReadOnce (refs : ValidRefs) : Prop :=
  (readMessageContentsInternal (readMessageContentsInternal db userId refs.rows).1 userId
    refs.rows).2 = none

def IsLast (refs : List MessageRef) (r : MessageRef) : Prop :=
  ∃ before after, refs = before ++ r :: after ∧ ∀ s ∈ after, s.contentId ≠ r.contentId

def Reported (refs : List MessageRef) (r : MessageRef) : Prop :=
  db.unreadMedia userId r = true ∨ db.unreadMention userId r = true ∧ IsLast refs r

/-- The contents with unread reactions have the identifiers of those unread references that are not
reported otherwise. -/
def ReactionsMatch (refs : ValidRefs) : Prop :=
  ∀ id, (∃ r ∈ refs.rows, r.contentId = id ∧ db.unreadReactions userId r = true) ↔
    ∃ r ∈ refs.rows, r.id = id ∧ db.isUnread userId r = true ∧ ¬ Reported db userId refs.rows r

end

section

variable {db : Db} {userId id : Nat} {refs : List MessageRef} {r : MessageRef}

theorem mentionsRead_eq_nil_iff :
    mentionsRead db userId refs = [] ↔ ∀ r ∈ refs, db.unreadMention userId r = false := by
  rw [mentionsRead, List.filter_eq_nil_iff]
  constructor
  · intro none_ r listed
    refine Bool.eq_false_iff.mpr fun unread => ?_
    obtain ⟨m, stored, is⟩ := List.any_eq_true.mp unread
    simp only [Bool.and_eq_true, beq_iff_eq] at is
    refine none_ m stored ?_
    simp only [Bool.and_eq_true, beq_iff_eq, List.contains_iff_mem]
    exact ⟨⟨is.1.1, is.1.2 ▸ List.mem_map_of_mem listed⟩, is.2⟩
  · intro read m stored is
    simp only [Bool.and_eq_true, beq_iff_eq, List.contains_iff_mem] at is
    obtain ⟨⟨own, asked⟩, unread⟩ := is
    obtain ⟨r, listed, same⟩ := List.mem_map.mp asked
    refine Bool.eq_false_iff.mp (read r listed) (List.any_eq_true.mpr ⟨m, stored, ?_⟩)
    simp only [Bool.and_eq_true, beq_iff_eq]
    exact ⟨⟨own, same.symm⟩, unread⟩

theorem mem_refsWithMedia_iff :
    r ∈ refsWithMedia db userId refs ↔ r ∈ refs ∧ db.unreadMedia userId r = true := by
  rw [refsWithMedia, List.mem_filter, List.mem_filter, and_assoc, Db.unreadMedia, Bool.and_eq_true]

theorem refsWithMedia_eq_nil_iff :
    refsWithMedia db userId refs = [] ↔ ∀ r ∈ refs, db.unreadMedia userId r = false := by
  rw [List.eq_nil_iff_forall_not_mem]
  constructor
  · intro none_ r listed
    exact Bool.eq_false_iff.mpr fun unread => none_ r (mem_refsWithMedia_iff.mpr ⟨listed, unread⟩)
  · intro read r there
    obtain ⟨listed, unread⟩ := mem_refsWithMedia_iff.mp there
    exact Bool.eq_false_iff.mp (read r listed) unread

theorem mem_unreadReactionIds_iff : id ∈ unreadReactionIds db userId refs ↔
    ∃ r ∈ refs, r.contentId = id ∧ db.unreadReactions userId r = true := by
  rw [unreadReactionIds, List.mem_map]
  constructor
  · rintro ⟨content, found, rfl⟩
    obtain ⟨stored, is⟩ := List.mem_filter.mp found
    simp only [Bool.and_eq_true, List.contains_iff_mem] at is
    obtain ⟨⟨asked, own⟩, unread⟩ := is
    obtain ⟨r, listed, same⟩ := List.mem_map.mp asked
    refine ⟨r, listed, same, ?_⟩
    rw [Db.unreadReactions, same, Table.mem_iff_get.mp stored, Option.any_some, own, unread]
    rfl
  · rintro ⟨r, listed, rfl, unread⟩
    rw [Db.unreadReactions] at unread
    cases found : db.contents.get r.contentId with
    | none =>
      rw [found] at unread
      cases unread
    | some content =>
      obtain ⟨stored, same⟩ := Table.get_eq_some_iff.mp found
      rw [found, Option.any_some, Bool.and_eq_true] at unread
      refine ⟨content, List.mem_filter.mpr ⟨stored, ?_⟩, same⟩
      rw [Bool.and_eq_true, Bool.and_eq_true, List.contains_iff_mem, same]
      exact ⟨⟨List.mem_map_of_mem listed, unread.1⟩, unread.2⟩

theorem unreadReactionIds_eq_nil_iff :
    unreadReactionIds db userId refs = [] ↔ ∀ r ∈ refs, db.unreadReactions userId r = false := by
  rw [List.eq_nil_iff_forall_not_mem]
  constructor
  · intro none_ r listed
    exact Bool.eq_false_iff.mpr fun unread =>
      none_ r.contentId (mem_unreadReactionIds_iff.mpr ⟨r, listed, rfl, unread⟩)
  · intro read id there
    obtain ⟨r, listed, -, unread⟩ := mem_unreadReactionIds_iff.mp there
    exact Bool.eq_false_iff.mp (read r listed) unread

theorem readMessageContentsInternal_none_iff :
    (readMessageContentsInternal db userId refs).2 = none ↔
      ∀ r ∈ refs, db.isUnread userId r = false := by
  have parts : (∀ r ∈ refs, db.isUnread userId r = false) ↔ mentionsRead db userId refs = [] ∧
      refsWithMedia db userId refs = [] ∧ unreadReactionIds db userId refs = [] := by
    rw [mentionsRead_eq_nil_iff, refsWithMedia_eq_nil_iff, unreadReactionIds_eq_nil_iff,
      ← forall₂_and, ← forall₂_and]
    refine forall₂_congr fun r _ => ?_
    rw [Db.isUnread, Bool.or_eq_false_iff, Bool.or_eq_false_iff, and_assoc]
  rw [readMessageContentsInternal_eq, parts]
  split
  case isTrue nothing => exact iff_of_true rfl nothing
  case isFalse something => exact iff_of_false nofun something

/-! ### After a call -/

theorem unreadMention_afterReading (listed : r ∈ refs) :
    (afterReading db userId refs).unreadMention userId r = false := by
  refine Bool.eq_false_iff.mpr fun unread => ?_
  obtain ⟨m', stored', is⟩ := List.any_eq_true.mp unread
  obtain ⟨m, stored, rfl⟩ := List.mem_map.mp stored'
  split at is
  case isTrue => simp at is
  case isFalse spared =>
    simp only [Bool.and_eq_true, beq_iff_eq] at is
    refine spared (List.contains_iff_mem.mpr (List.mem_map_of_mem (List.mem_filter.mpr
      ⟨stored, ?_⟩)))
    simp only [Bool.and_eq_true, beq_iff_eq, List.contains_iff_mem]
    exact ⟨⟨is.1.1, is.1.2 ▸ List.mem_map_of_mem listed⟩, is.2⟩

theorem get_afterReading (contentId : Nat) : (afterReading db userId refs).contents.get contentId =
    (db.contents.get contentId).map fun content =>
      if (unreadReactionIds db userId refs).contains content.id then
        { content with authorReactionsUnread := false } else content :=
  Table.get_modify db.contents _ (fun content => { content with authorReactionsUnread := false })
    id_of_reactionsRead contentId

theorem unreadMedia_afterReading (listed : r ∈ refs) :
    (afterReading db userId refs).unreadMedia userId r = false := by
  refine Bool.eq_false_iff.mpr fun unread => ?_
  obtain ⟨readable', unread'⟩ := Bool.and_eq_true_iff.mp unread
  have readable : ((db.contents.get r.contentId).any fun content => content.readableMedia) = true := by
    rw [get_afterReading, Option.any_map] at readable'
    refine Eq.trans (congrArg (fun check => (db.contents.get r.contentId).any check) ?_) readable'
    funext content
    change content.readableMedia = MessageContent.readableMedia (if _ then _ else _)
    split <;> rfl
  have read : (userId, r.id) ∈ (afterReading db userId refs).mediaReads := by
    by_cases before : db.mediaReads.contains (userId, r.id) = true
    · exact List.mem_append_left _ (List.contains_iff_mem.mp before)
    · refine List.mem_append_right _ (List.mem_map.mpr ⟨r, mem_refsWithMedia_iff.mpr ⟨listed, ?_⟩, rfl⟩)
      rw [Db.unreadMedia, readable, Bool.eq_false_iff.mpr before]
      rfl
  rw [List.contains_iff_mem.mpr read] at unread'
  cases unread'

theorem unreadReactions_afterReading (listed : r ∈ refs) :
    (afterReading db userId refs).unreadReactions userId r = false := by
  refine Bool.eq_false_iff.mpr fun unread => ?_
  rw [Db.unreadReactions, get_afterReading] at unread
  cases found : db.contents.get r.contentId with
  | none =>
    rw [found] at unread
    cases unread
  | some content =>
    rw [found, Option.map_some, Option.any_some] at unread
    split at unread
    case isTrue =>
      rw [Bool.and_false] at unread
      cases unread
    case isFalse spared =>
      refine spared (List.contains_iff_mem.mpr (mem_unreadReactionIds_iff.mpr
        ⟨r, listed, (Table.get_eq_some_iff.mp found).2.symm, ?_⟩))
      rw [Db.unreadReactions, found]
      exact unread

theorem unreadState_afterReading (listed : r ∈ refs) :
    (afterReading db userId refs).unreadState userId r = (false, false, false) := by
  rw [Db.unreadState, unreadMention_afterReading listed, unreadMedia_afterReading listed,
    unreadReactions_afterReading listed]

theorem isUnread_iff : db.isUnread userId r = true ↔
    (false, false, false) ≠ db.unreadState userId r := by
  rw [Db.isUnread, Db.unreadState]
  cases db.unreadMention userId r <;> cases db.unreadMedia userId r <;>
    cases db.unreadReactions userId r <;> decide

theorem isUnread_afterReading (listed : r ∈ refs) :
    (afterReading db userId refs).isUnread userId r = false :=
  Bool.eq_false_iff.mpr fun unread => isUnread_iff.mp unread (unreadState_afterReading listed).symm

theorem readOnce (refs : ValidRefs) : ReadOnce db userId refs := by
  rw [ReadOnce, readMessageContentsInternal_none_iff]
  intro r listed
  rw [readMessageContentsInternal_eq db]
  split
  case isTrue nothing =>
    refine readMessageContentsInternal_none_iff.mp ?_ r listed
    rw [readMessageContentsInternal_eq, if_pos nothing]
  case isFalse => exact isUnread_afterReading listed

/-! ### The identifiers -/

theorem refByContentId_lookup {contentId : Nat} : (refByContentId refs).lookup contentId = some id ↔
    ∃ r, IsLast refs r ∧ r.contentId = contentId ∧ r.id = id := by
  rw [refByContentId, OrderedDict.lookup_ofPairs_eq_some_iff]
  constructor
  · rintro ⟨front, back, split, unset⟩
    obtain ⟨before, rest, rfl, -, tail⟩ := List.map_eq_append_iff.mp split
    obtain ⟨r, after, rfl, here, rfl⟩ := List.map_eq_cons_iff.mp tail
    obtain ⟨rfl, rfl⟩ := Prod.mk.inj here
    exact ⟨r, ⟨before, after, rfl, fun s later same => unset _ (List.mem_map_of_mem later) same⟩,
      rfl, rfl⟩
  · rintro ⟨r, ⟨before, after, rfl, unset⟩, rfl, rfl⟩
    refine ⟨_, _, List.map_append, fun pair listed => ?_⟩
    obtain ⟨s, later, rfl⟩ := List.mem_map.mp listed
    exact unset s later

theorem IsLast.listed (last : IsLast refs r) : r ∈ refs := by
  obtain ⟨before, after, rfl, -⟩ := last
  exact List.mem_append_right _ List.mem_cons_self

theorem mem_readIds_iff : id ∈ readIds db userId refs ↔
    ∃ r ∈ refs, r.id = id ∧ Reported db userId refs r := by
  rw [readIds, List.mem_dedup, List.mem_append, List.mem_filterMap, List.mem_map]
  constructor
  · rintro (⟨m, found, leads⟩ | ⟨r, found, rfl⟩)
    · obtain ⟨stored, is⟩ := List.mem_filter.mp found
      obtain ⟨r, last, same, rfl⟩ := refByContentId_lookup.mp leads
      simp only [Bool.and_eq_true] at is
      refine ⟨r, last.listed, rfl, .inr ⟨List.any_eq_true.mpr ⟨m, stored, ?_⟩, last⟩⟩
      rw [is.1.1, is.2, beq_iff_eq.mpr same.symm]
      rfl
    · obtain ⟨listed, unread⟩ := mem_refsWithMedia_iff.mp found
      exact ⟨r, listed, rfl, .inl unread⟩
  · rintro ⟨r, listed, rfl, unread | ⟨unread, last⟩⟩
    · exact .inr ⟨r, mem_refsWithMedia_iff.mpr ⟨listed, unread⟩, rfl⟩
    · obtain ⟨m, stored, is⟩ := List.any_eq_true.mp unread
      simp only [Bool.and_eq_true, beq_iff_eq] at is
      obtain ⟨⟨own, same⟩, left⟩ := is
      refine .inl ⟨m, List.mem_filter.mpr ⟨stored, ?_⟩, refByContentId_lookup.mpr
        ⟨r, last, same.symm, rfl⟩⟩
      rw [beq_iff_eq.mpr own, left, List.contains_iff_mem.mpr (same ▸ List.mem_map_of_mem listed)]
      rfl

theorem Reported.isUnread (reported : Reported db userId refs r) : db.isUnread userId r = true := by
  rw [Db.isUnread]
  rcases reported with unread | ⟨unread, -⟩
  · rw [unread, Bool.or_true, Bool.true_or]
  · rw [unread, Bool.true_or, Bool.true_or]

theorem namesRight_of_some (refs : ValidRefs) :
    ((readIds db userId refs.rows ++ unreadReactionIds db userId refs.rows).Nodup ∧
      ∀ id, id ∈ readIds db userId refs.rows ++ unreadReactionIds db userId refs.rows ↔
        ∃ r ∈ refs.rows, r.id = id ∧ db.isUnread userId r = true) ↔
      ReactionsMatch db userId refs := by
  have once : (unreadReactionIds db userId refs.rows).Nodup := db.contents.nodup_filter _
  have apart (id : Nat) : (∃ r ∈ refs.rows, r.id = id ∧ db.isUnread userId r = true ∧
      ¬ Reported db userId refs.rows r) ↔
      (∃ r ∈ refs.rows, r.id = id ∧ db.isUnread userId r = true) ∧
        ¬ id ∈ readIds db userId refs.rows := by
    rw [mem_readIds_iff]
    constructor
    · rintro ⟨r, listed, rfl, unread, other⟩
      refine ⟨⟨r, listed, rfl, unread⟩, ?_⟩
      rintro ⟨s, there, same, reported⟩
      rw [List.inj_on_of_nodup_map refs.once there listed same] at reported
      exact other reported
    · rintro ⟨⟨r, listed, rfl, unread⟩, other⟩
      exact ⟨r, listed, rfl, unread, fun reported => other ⟨r, listed, rfl, reported⟩⟩
  have reported (id : Nat) (read : id ∈ readIds db userId refs.rows) :
      ∃ r ∈ refs.rows, r.id = id ∧ db.isUnread userId r = true := by
    obtain ⟨r, listed, same, is⟩ := mem_readIds_iff.mp read
    exact ⟨r, listed, same, is.isUnread⟩
  simp only [ReactionsMatch, ← mem_unreadReactionIds_iff, apart, List.mem_append]
  rw [List.nodup_append]
  constructor
  · rintro ⟨⟨-, -, disjoint⟩, all⟩ id
    constructor
    · intro reaction
      exact ⟨(all id).mp (.inr reaction), fun read => disjoint id read id reaction rfl⟩
    · rintro ⟨unread, other⟩
      exact ((all id).mpr unread).resolve_left other
  · intro all
    refine ⟨⟨List.nodup_dedup _, once, ?_⟩, fun id => ⟨?_, fun unread => ?_⟩⟩
    · rintro id read _ reaction rfl
      exact ((all id).mp reaction).2 read
    · rintro (read | reaction)
      · exact reported id read
      · exact ((all id).mp reaction).1
    · by_cases read : id ∈ readIds db userId refs.rows
      · exact .inl read
      · exact .inr ((all id).mpr ⟨unread, read⟩)

theorem namesRight_iff (refs : ValidRefs) :
    NamesRight db userId refs ↔ ReactionsMatch db userId refs := by
  rw [NamesRight, readMessageContentsInternal_eq]
  split
  case isTrue nothing =>
    have none_ : ∀ r ∈ refs.rows, db.isUnread userId r = false := by
      refine readMessageContentsInternal_none_iff.mp ?_
      rw [readMessageContentsInternal_eq, if_pos nothing]
    refine iff_of_true ⟨List.nodup_nil, fun id => iff_of_false List.not_mem_nil ?_⟩ fun id =>
      iff_of_false ?_ ?_
    · rintro ⟨r, -, -, changed⟩
      exact changed rfl
    · rintro ⟨r, listed, -, unread⟩
      have read := none_ r listed
      rw [Db.isUnread, unread, Bool.or_true] at read
      cases read
    · rintro ⟨r, listed, -, unread, -⟩
      rw [none_ r listed] at unread
      cases unread
  case isFalse =>
    rw [← namesRight_of_some]
    refine and_congr_right fun _ => forall_congr' fun id => iff_congr Iff.rfl ?_
    refine exists_congr fun r => and_congr_right fun listed => and_congr_right fun _ => ?_
    rw [unreadState_afterReading listed, isUnread_iff]

end

/-! ### Mentions in a group -/

def MentionedThere (db : Db) (userId targetId contentId : Nat) : Prop :=
  ∃ m ∈ db.mentions, m.userId = userId ∧ m.unreadTargetId = some targetId ∧ m.contentId = contentId

/-- What is announced of the mentions in a group are the references there of the messages in which
the user had unread ones. -/
def GroupMentionsRight (db : Db) (userId : Nat) : Prop :=
  ∀ peerId after affected, readMentions db userId peerId = .ok (after, affected) →
    ∀ peer chatId, db.peers.get peerId = some peer → peer.target = .chat chatId →
      ((¬ ∃ contentId, MentionedThere db userId (Chat.makeIdFrom chatId) contentId) ∧
        after.otherPushed = db.otherPushed) ∨
      ∃ ids pts ptsCount, after.otherPushed =
          db.otherPushed ++ [([userId], .readMessagesContents ids pts ptsCount)] ∧ ids.Nodup ∧
        ∀ id, id ∈ ids ↔ ∃ r ∈ db.refs, r.id = id ∧ r.peer = peer ∧
          MentionedThere db userId (Chat.makeIdFrom chatId) r.contentId

section

variable {db after : Db} {userId targetId contentId : Nat}

theorem addPts_pushed {count : Int} {pts : Int} (done : db.addPts userId count = .ok (after, pts)) :
    after.otherPushed = db.otherPushed := by
  rw [Db.addPts] at done
  split at done
  · cases done
  · cases done
    rfl

theorem updReadMessagesContents_pushed {ids : List Nat} {pts : Int}
    (done : db.updReadMessagesContents userId ids = .ok (after, pts)) : after.otherPushed =
      db.otherPushed ++ [([userId], .readMessagesContents ids pts ids.length)] := by
  rw [Db.updReadMessagesContents] at done
  obtain ⟨⟨counted, newPts⟩, added, rest⟩ := (bind_eq_ok _).mp done
  cases rest
  exact congrArg (· ++ _) (addPts_pushed added)

/-- The mentions that a handler finds. -/
def mentionedThere (db : Db) (userId targetId : Nat) : List MessageMention :=
  db.mentions.rows.filter fun m => m.userId == userId && m.unreadTargetId == some targetId

theorem mem_mentionedThere_iff :
    contentId ∈ (mentionedThere db userId targetId).map MessageMention.contentId ↔
      MentionedThere db userId targetId contentId := by
  rw [mentionedThere, List.mem_map, MentionedThere]
  refine exists_congr fun m => ?_
  rw [List.mem_filter, Bool.and_eq_true, beq_iff_eq, beq_iff_eq, Table.mem_def, and_assoc, and_assoc]

theorem mentionedThere_eq_nil_iff : mentionedThere db userId targetId = [] ↔
    ¬ ∃ contentId, MentionedThere db userId targetId contentId := by
  rw [← List.map_eq_nil_iff, List.eq_nil_iff_forall_not_mem, not_exists]
  exact forall_congr' fun _ => not_congr mem_mentionedThere_iff

theorem ids_raised (check : MessageRef → Bool) (keeps) (peer : Peer) (contentIds : List Nat) :
    ((db.refs.modify check (fun r => { r with version := r.version + 1 }) keeps).rows.filter
        fun r => r.peer == peer && contentIds.contains r.contentId).map MessageRef.id =
      (db.refs.rows.filter fun r =>
        r.peer == peer && contentIds.contains r.contentId).map MessageRef.id := by
  have raised (r : MessageRef) :
      let r' := if check r then { r with version := r.version + 1 } else r
      r'.id = r.id ∧ r'.peer = r.peer ∧ r'.contentId = r.contentId := by
    dsimp only
    split <;> exact ⟨rfl, rfl, rfl⟩
  rw [Table.modify, List.filter_map, List.map_map]
  have same : (MessageRef.id ∘ fun r => if check r then { r with version := r.version + 1 } else r) =
      MessageRef.id := funext fun r => (raised r).1
  rw [same]
  refine congrArg _ (List.filter_congr fun r _ => ?_)
  obtain ⟨-, samePeer, sameContent⟩ := raised r
  rw [Function.comp, samePeer, sameContent]

theorem groupMentionsRight (db : Db) (userId : Nat) : GroupMentionsRight db userId := by
  intro peerId after affected done peer chatId found group
  rw [readMentions] at done
  obtain ⟨peer', resolved, done⟩ := (bind_eq_ok _).mp done
  obtain rfl : peer' = peer :=
    Option.some.inj ((db.fromInputPeerRaise_eq_ok resolved).1.symm.trans found)
  rw [group] at done
  dsimp only at done
  split at done
  case isTrue nothing =>
    obtain ⟨⟨counted, pts⟩, added, rest⟩ := (bind_eq_ok _).mp done
    cases rest
    exact .inl ⟨mentionedThere_eq_nil_iff.mp nothing, addPts_pushed added⟩
  case isFalse =>
    obtain ⟨⟨counted, pts⟩, announced, rest⟩ := (bind_eq_ok _).mp done
    cases rest
    have pushed := updReadMessagesContents_pushed announced
    refine .inr ⟨_, _, _, pushed, Table.nodup_filter _ _, fun id => ?_⟩
    rw [ids_raised, List.mem_map]
    refine exists_congr fun r => ?_
    rw [List.mem_filter, Bool.and_eq_true, beq_iff_eq, List.contains_iff_mem, Table.mem_def]
    constructor
    · rintro ⟨⟨stored, inGroup, mentioned⟩, same⟩
      exact ⟨stored, same, inGroup, mem_mentionedThere_iff.mp mentioned⟩
    · rintro ⟨stored, same, inGroup, mentioned⟩
      exact ⟨⟨stored, inGroup, mem_mentionedThere_iff.mpr mentioned⟩, same⟩

end

/-! ### Mentions in a channel -/

/-- A row of `MessageRef` in the peer of a channel. -/
structure ChannelRef where
  id : Nat
  channelId : Nat
  contentId : Nat
  deriving DecidableEq, Repr

/-- `channelPushed` has every `UpdateChannelReadMessagesContents`, with the user and the channel. -/
structure ChannelsDb extends Db where
  channelRefs : Table ChannelRef.id
  channelPts : Nat → Int
  channelPushed : List (Nat × Nat × List Nat)

/-- `Channel.make_id_from`. -/
def channelTargetId (channelId : Nat) : Nat := channelId * 2 + 1

/-- `read_mentions` for the peer of a channel. -/
def readChannelMentions (db : ChannelsDb) (userId channelId : Nat) : ChannelsDb × Affected :=
  let mentioned := mentionedThere db.toDb userId (channelTargetId channelId)
  if mentioned = [] then (db, ⟨db.channelPts channelId, 0, 0⟩)
  else
    let refIds := (db.channelRefs.rows.filter fun r => r.channelId == channelId).map ChannelRef.id
    ({ db with
        mentions := db.mentions.modify (fun m => (mentioned.map MessageMention.id).contains m.id)
          (fun m => { m with unreadTargetId := none }) id_of_mentionRead
        channelPushed := db.channelPushed ++ [(userId, channelId, refIds)] },
      ⟨db.channelPts channelId, 0, 0⟩)

section

variable (db : ChannelsDb) (userId channelId : Nat)

/-- The same as in a group. -/
def ChannelMentionsRight : Prop :=
  ((¬ ∃ contentId, MentionedThere db.toDb userId (channelTargetId channelId) contentId) ∧
    (readChannelMentions db userId channelId).1.channelPushed = db.channelPushed) ∨
  ∃ ids, (readChannelMentions db userId channelId).1.channelPushed =
      db.channelPushed ++ [(userId, channelId, ids)] ∧ ids.Nodup ∧
    ∀ id, id ∈ ids ↔ ∃ r ∈ db.channelRefs, r.id = id ∧ r.channelId = channelId ∧
      MentionedThere db.toDb userId (channelTargetId channelId) r.contentId

/-- Who has an unread mention in the channel has one in every message of it. -/
def AllMentioned : Prop :=
  (∃ contentId, MentionedThere db.toDb userId (channelTargetId channelId) contentId) →
    ∀ r ∈ db.channelRefs, r.channelId = channelId →
      MentionedThere db.toDb userId (channelTargetId channelId) r.contentId

variable {db userId channelId}

theorem channelMentionsRight_iff :
    ChannelMentionsRight db userId channelId ↔ AllMentioned db userId channelId := by
  rw [ChannelMentionsRight, readChannelMentions]
  split
  case isTrue nothing =>
    have none_ := mentionedThere_eq_nil_iff.mp nothing
    exact iff_of_true (.inl ⟨none_, rfl⟩) fun some_ => absurd some_ none_
  case isFalse something =>
    have some_ := not_not.mp (mt mentionedThere_eq_nil_iff.mpr something)
    rw [AllMentioned, imp_iff_right some_]
    constructor
    · rintro (⟨none_, -⟩ | ⟨ids, pushed, -, right⟩)
      · exact absurd some_ none_
      · intro r stored here
        have sent := (Prod.mk.inj (Prod.mk.inj (List.singleton_inj.mp
          (List.append_cancel_left pushed))).2).2
        have listed : r.id ∈ ids := by
          rw [← sent]
          refine List.mem_map_of_mem (List.mem_filter.mpr ⟨stored, beq_iff_eq.mpr here⟩)
        obtain ⟨s, there, same, -, mentioned⟩ := (right r.id).mp listed
        rwa [Table.eq_of_key_eq there stored same] at mentioned
    · intro all
      refine .inr ⟨_, rfl, db.channelRefs.nodup_filter _, fun id => ?_⟩
      rw [List.mem_map]
      constructor
      · rintro ⟨r, found, rfl⟩
        obtain ⟨stored, is⟩ := List.mem_filter.mp found
        have here := beq_iff_eq.mp is
        exact ⟨r, stored, rfl, here, all r stored here⟩
      · rintro ⟨r, stored, rfl, here, -⟩
        exact ⟨r, List.mem_filter.mpr ⟨stored, beq_iff_eq.mpr here⟩, rfl⟩

end

/-- Reading contents names the right messages exactly when the contents with unread reactions have
the identifiers of the references that are not named otherwise, and leaves nothing to read; reading
mentions does in a group, and in a channel exactly when every message there is mentioned. -/
theorem read_markers_iff (db : ChannelsDb) (userId : Nat) :
    (∀ refs, (NamesRight db.toDb userId refs ↔ ReactionsMatch db.toDb userId refs) ∧
      ReadOnce db.toDb userId refs) ∧
    GroupMentionsRight db.toDb userId ∧
    ∀ channelId, ChannelMentionsRight db userId channelId ↔ AllMentioned db userId channelId :=
  ⟨fun refs => ⟨namesRight_iff refs, readOnce refs⟩, groupMentionsRight db.toDb userId,
    fun _ => channelMentionsRight_iff⟩

/-! ### A message with unread reactions -/

private def author : Peer := ⟨81, 1, .user 2, false⟩

private def reactedRef : MessageRef := ⟨101, author, 7, false, 0⟩

private def reactedDb : ChannelsDb where
  bots := []
  peers := .insert .empty author
  chats := .empty
  participants := []
  contents := .insert .empty ⟨7, .regular, some 1, true, false, 0, none⟩
  refs := .insert .empty reactedRef
  mentions := .empty
  mediaReads := []
  server := ⟨fun _ => some 0, [], []⟩
  otherPushed := []
  channelRefs := .empty
  channelPts := fun _ => 0
  channelPushed := []

/-- The identifier of the content is returned. -/
theorem content_named : ¬ ∀ (db : ChannelsDb) (userId : Nat),
    (∀ refs, NamesRight db.toDb userId refs ∧ ReadOnce db.toDb userId refs) ∧
      GroupMentionsRight db.toDb userId ∧
      ∀ channelId, ChannelMentionsRight db userId channelId := by
  intro right
  have named := (right reactedDb 1).1 ⟨[reactedRef], List.nodup_singleton _⟩
  have ids : (readMessageContentsInternal reactedDb.toDb 1 [reactedRef]).2 = some [7] := by decide
  have seven := (named.1.2 7).mp (by rw [ids]; decide)
  obtain ⟨r, listed, same, -⟩ := seven
  rw [List.mem_singleton.mp listed] at same
  cases same

end Piltover.Messages
