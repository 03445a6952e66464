/- source: piltover/db/models/message_ref.py, piltover/db/models/message_content.py,
     piltover/db/models/message_mention.py, piltover/db/models/message_media_read.py,
     piltover/db/enums.py
   digest: What a user is shown of a reference to a message, alone and in a list: when the two are
     the same. -/

import Piltover.Foundation.SharedCache
import Piltover.Foundation.Table

set_option autoImplicit false

namespace Piltover.Formatting

open Piltover.Foundation

inductive FileType
  | document | photo | documentGif | documentVideo | documentAudio | documentVoice
  | documentVideoNote | documentSticker | documentEmoji | encrypted
  deriving DecidableEq, Repr

def READABLE_FILE_TYPES : List FileType := [.documentVoice, .documentVideoNote]

inductive MessageType
  | regular
  | service (code : Nat)
  | scheduled
  deriving DecidableEq, Repr

structure MessageMedia where
  file : Option FileType
  deriving DecidableEq, Repr

/-- A row of `MessageContent`; an author who is gone is `none`. -/
structure MessageContent where
  type : MessageType
  authorId : Option Nat
  media : Option MessageMedia
  scheduledDate : Option Int
  deriving DecidableEq, Repr

def MessageContent.isService (self : MessageContent) : Bool :=
  self.type != .regular && self.type != .scheduled

def MessageContent.readable (self : MessageContent) : Bool :=
  self.media.any fun media => media.file.any READABLE_FILE_TYPES.contains

/-- What `peer.to_tl` makes of the conversation. -/
inductive Peer
  | user (id : Nat)
  | chat (id : Nat)
  | channel (id : Nat)
  deriving DecidableEq, Repr

structure MessageRef where
  id : Nat
  contentId : Nat
  peer : Peer
  pinned : Bool
  version : Nat
  fromScheduled : Bool
  replyToId : Option Nat
  topMessageId : Option Nat
  isDiscussion : Bool
  deriving DecidableEq, Repr

structure MessageMention where
  userId : Nat
  messageId : Nat
  /-- The conversation in which the mention is unread. -/
  unreadTargetId : Option Nat
  deriving DecidableEq, Repr

/-- The columns that are unique together. -/
def MessageMention.key (m : MessageMention) : Nat × Nat := (m.userId, m.messageId)

structure MessageMediaRead where
  userId : Nat
  messageId : Nat
  deriving DecidableEq, Repr

def MessageMediaRead.key (m : MessageMediaRead) : Nat × Nat := (m.userId, m.messageId)

/-- The tables; every reference has its content. -/
structure Db where
  refs : Table MessageRef.id
  contents : Nat → MessageContent
  mentions : Table MessageMention.key
  mediaReads : Table MessageMediaRead.key

structure MessageReplyHeader where
  replyToMsgId : Option Nat
  replyToTopId : Option Nat
  forumTopic : Bool
  deriving DecidableEq, Repr

structure MessageToFormatRef where
  id : Nat
  pinned : Bool
  peerId : Peer
  out : Bool
  replyTo : Option MessageReplyHeader
  mentioned : Bool
  mediaUnread : Bool
  fromScheduled : Bool
  deriving DecidableEq, Repr

/-- The keys `message-ref:{user_id}:{id}:{version}`. -/
abbrev CacheKey := Nat × Nat × Nat

abbrev RefCache := Cache CacheKey MessageToFormatRef

/-! ### One reference -/

namespace MessageRef

variable (self : MessageRef)

def cacheKey (userId : Nat) : CacheKey := (userId, self.id, self.version)

def makeReplyToHeader : Option MessageReplyHeader :=
  if self.replyToId.isNone && self.topMessageId.isNone then none
  else
    let forumTopic := self.topMessageId.isSome && self.replyToId == self.topMessageId &&
      !self.isDiscussion
    some ⟨self.replyToId, self.topMessageId, forumTopic⟩

/-- `_to_tl_ref`. -/
def format (content : MessageContent) (out mentioned mediaUnread : Bool) : MessageToFormatRef where
  id := self.id
  pinned := self.pinned
  peerId := self.peer
  out := out
  replyTo := self.makeReplyToHeader
  mentioned := mentioned
  mediaUnread := mediaUnread
  fromScheduled := self.fromScheduled || content.scheduledDate.isSome

/-- What `to_tl_ref` computes where nothing is cached. -/
def computed (db : Db) (userId : Nat) : MessageToFormatRef :=
  let content := db.contents self.contentId
  let messageMention := (db.mentions.get (userId, self.contentId)).map (·.unreadTargetId)
  let (mentioned, mentionRead) :=
    match messageMention with
    | some mentionTargetId => (true, mentionTargetId.isNone)
    | none => (false, true)
  let out := !self.isDiscussion && some userId == content.authorId
  let mediaUnread :=
    if !out && content.readable then (db.mediaReads.get (userId, self.id)).isNone else false
  self.format content out (if out then false else mentioned)
    (if out then false else if mediaUnread then mediaUnread else !mentionRead)

def toTlRef (db : Db) (cache : RefCache) (userId : Nat) : MessageToFormatRef × RefCache :=
  match cache (self.cacheKey userId) with
  | some cached => (cached, cache)
  | none => (self.computed db userId, cache.set (self.cacheKey userId) (self.computed db userId))

end MessageRef

/-! ### A list of references -/

/-- What `to_tl_ref_bulk` computes for a reference that is not cached. `mentioned` says whether a
mention of the user in a content is read. -/
def MessageRef.computedInBulk (db : Db) (userId : Nat) (mentioned : Nat → Option Bool)
    (mediaRead : List Nat) (ref : MessageRef) : MessageToFormatRef :=
  let content := db.contents ref.contentId
  let out := some userId == content.authorId
  ref.format content out (if out then false else (mentioned ref.contentId).isSome)
    (if out then false
      else !mediaRead.contains ref.id && !(mentioned ref.contentId).getD true)

def toTlRefBulk (db : Db) (cache : RefCache) (refs : List MessageRef) (userId : Nat)
    (skipCache : Bool) : List MessageToFormatRef × RefCache :=
  let cached := refs.map fun ref => if skipCache then none else cache (ref.cacheKey userId)
  let messageContentIds := (refs.zip cached).filterMap fun (ref, cachedRef) =>
    if cachedRef.isNone && !(db.contents ref.contentId).isService then some ref.contentId else none
  let mentioned := fun contentId =>
    if messageContentIds.contains contentId then
      (db.mentions.get (userId, contentId)).map (·.unreadTargetId.isNone)
    else none
  let validMediaRefIds :=
    (refs.filter fun ref => (db.contents ref.contentId).readable).map MessageRef.id
  let mediaRead := validMediaRefIds.filter fun id => (db.mediaReads.get (userId, id)).isSome
  let result := (refs.zip cached).map fun (ref, cachedRef) =>
    cachedRef.getD (ref.computedInBulk db userId mentioned mediaRead)
  let toCache := (refs.zip cached).filterMap fun (ref, cachedRef) =>
    if cachedRef.isNone then
      some (ref.cacheKey userId, ref.computedInBulk db userId mentioned mediaRead)
    else none
  (result, cache.multiSet toCache)

/-- The references that a list of identifiers names. -/
def Db.fetch (db : Db) (ids : List Nat) : List MessageRef := ids.filterMap db.refs.get

/-! ### Agreement -/

section

variable {db : Db} {userId : Nat} {ref : MessageRef} {refs : List MessageRef}

def MessageRef.mention (ref : MessageRef) (db : Db) (userId : Nat) : Option (Option Nat) :=
  (db.mentions.get (userId, ref.contentId)).map (·.unreadTargetId)

def MessageRef.unreadMention (ref : MessageRef) (db : Db) (userId : Nat) : Bool :=
  (ref.mention db userId).any Option.isSome

def MessageRef.mediaRead (ref : MessageRef) (db : Db) (userId : Nat) : Bool :=
  (db.mediaReads.get (userId, ref.id)).isSome

/-- A reference of the user's own is no copy in a discussion; in one of somebody else no service
message mentions the user, and media that are heard or watched are unread exactly if a mention of
the user is. -/
def MessageRef.Alike (ref : MessageRef) (db : Db) (userId : Nat) : Prop :=
  if some userId = (db.contents ref.contentId).authorId then ref.isDiscussion = false
  else
    ((db.contents ref.contentId).isService = true → ref.mention db userId = none) ∧
      ((db.contents ref.contentId).readable = true →
        ref.mediaRead db userId = !ref.unreadMention db userId)

/-- What a list of references computes for one of them, whatever the others are. -/
def MessageRef.listed (ref : MessageRef) (db : Db) (userId : Nat) : MessageToFormatRef :=
  let content := db.contents ref.contentId
  let out := some userId == content.authorId
  ref.format content out
    (if out then false else !content.isService && (ref.mention db userId).isSome)
    (if out then false else !(content.readable && ref.mediaRead db userId) &&
      (!content.isService && ref.unreadMention db userId))

theorem format_inj {content : MessageContent} {out mentioned mediaUnread : Bool}
    {out' mentioned' mediaUnread' : Bool} :
    ref.format content out mentioned mediaUnread =
        ref.format content out' mentioned' mediaUnread' ↔
      out = out' ∧ mentioned = mentioned' ∧ mediaUnread = mediaUnread' := by
  constructor
  · intro same
    exact ⟨congrArg MessageToFormatRef.out same, congrArg MessageToFormatRef.mentioned same,
      congrArg MessageToFormatRef.mediaUnread same⟩
  · rintro ⟨rfl, rfl, rfl⟩
    rfl

theorem computed_eq : ref.computed db userId =
    ref.format (db.contents ref.contentId)
      (!ref.isDiscussion && some userId == (db.contents ref.contentId).authorId)
      (!(!ref.isDiscussion && some userId == (db.contents ref.contentId).authorId) &&
        (ref.mention db userId).isSome)
      (!(!ref.isDiscussion && some userId == (db.contents ref.contentId).authorId) &&
        ((db.contents ref.contentId).readable && !ref.mediaRead db userId ||
          ref.unreadMention db userId)) := by
  rw [MessageRef.computed, MessageRef.mediaRead, MessageRef.unreadMention, MessageRef.mention]
  rcases db.mentions.get (userId, ref.contentId) with _ | ⟨_, _, _ | target⟩ <;>
  cases db.mediaReads.get (userId, ref.id) <;>
  cases (db.contents ref.contentId).readable <;>
  cases !ref.isDiscussion && some userId == (db.contents ref.contentId).authorId <;> rfl

theorem listed_eq_computed_iff :
    ref.listed db userId = ref.computed db userId ↔ ref.Alike db userId := by
  rw [computed_eq, MessageRef.listed, format_inj, MessageRef.Alike]
  by_cases own : some userId = (db.contents ref.contentId).authorId
  · rw [if_pos own, beq_iff_eq.mpr own]
    cases ref.isDiscussion <;> simp
  · rw [if_neg own, beq_eq_false_iff_ne.mpr own, MessageRef.unreadMention]
    rcases ref.mention db userId with _ | _ | target <;>
    cases (db.contents ref.contentId).isService <;>
    cases (db.contents ref.contentId).readable <;>
    cases ref.mediaRead db userId <;> simp

/-! ### Lists -/

theorem get_of_mem_fetch {ids : List Nat} (fetched : ref ∈ db.fetch ids) :
    db.refs.get ref.id = some ref := by
  obtain ⟨id, -, found⟩ := List.mem_filterMap.mp fetched
  exact Table.get_eq_some_iff.mpr ⟨(Table.get_eq_some_iff.mp found).1, rfl⟩

theorem eq_of_mem_fetch {ids : List Nat} {ref' : MessageRef} (here : ref ∈ db.fetch ids)
    (there : ref' ∈ db.fetch ids) (same : ref.id = ref'.id) : ref = ref' := by
  have found := get_of_mem_fetch here
  rw [same, get_of_mem_fetch there] at found
  exact (Option.some.inj found).symm

theorem contains_contentIds (here : ref ∈ refs) :
    (refs.filterMap fun ref => if !(db.contents ref.contentId).isService then some ref.contentId
      else none).contains ref.contentId = !(db.contents ref.contentId).isService := by
  rw [Bool.eq_iff_iff, List.contains_iff_mem, List.mem_filterMap]
  constructor
  · rintro ⟨other, -, asked⟩
    split at asked
    case isTrue plain =>
        rw [← Option.some.inj asked]
        exact plain
    case isFalse service => cases asked
  · intro plain
    exact ⟨ref, here, if_pos plain⟩

theorem contains_mediaRead (distinct : ∀ ref ∈ refs, ∀ other ∈ refs, ref.id = other.id → ref = other)
    (here : ref ∈ refs) :
    (((refs.filter fun ref => (db.contents ref.contentId).readable).map
        MessageRef.id).filter fun id => (db.mediaReads.get (userId, id)).isSome).contains ref.id =
      ((db.contents ref.contentId).readable && ref.mediaRead db userId) := by
  rw [Bool.eq_iff_iff, List.contains_iff_mem, List.mem_filter, List.mem_map, Bool.and_eq_true]
  refine and_congr_left' ⟨?_, fun readable => ⟨ref, List.mem_filter.mpr ⟨here, readable⟩, rfl⟩⟩
  rintro ⟨other, asked, same⟩
  obtain ⟨there, readable⟩ := List.mem_filter.mp asked
  rwa [distinct ref here other there same.symm]

theorem computedInBulk_eq_listed {contentIds read : List Nat}
    (asked : contentIds.contains ref.contentId = !(db.contents ref.contentId).isService)
    (heard : read.contains ref.id =
      ((db.contents ref.contentId).readable && ref.mediaRead db userId)) :
    ref.computedInBulk db userId (fun contentId =>
        if contentIds.contains contentId then
          (db.mentions.get (userId, contentId)).map (·.unreadTargetId.isNone)
        else none) read = ref.listed db userId := by
  rw [MessageRef.computedInBulk, MessageRef.listed, MessageRef.unreadMention, MessageRef.mention,
    asked, heard]
  rcases db.mentions.get (userId, ref.contentId) with _ | ⟨_, _, _ | target⟩ <;>
  cases (db.contents ref.contentId).isService <;> rfl

theorem toTlRefBulk_uncached {cache : RefCache} {skipCache : Bool}
    (distinct : ∀ ref ∈ refs, ∀ other ∈ refs, ref.id = other.id → ref = other)
    (free : ∀ ref ∈ refs, skipCache = true ∨ cache (ref.cacheKey userId) = none) :
    toTlRefBulk db cache refs userId skipCache =
      (refs.map (·.listed db userId),
        cache.multiSet (refs.map fun ref => (ref.cacheKey userId, ref.listed db userId))) := by
  have uncached : (refs.map fun ref =>
      if skipCache then none else cache (ref.cacheKey userId)) = refs.map fun _ => none :=
    List.map_congr_left fun ref here => by
      rcases free ref here with skips | none
      · rw [skips, if_pos rfl]
      · rw [none, ite_self]
  rw [toTlRefBulk, uncached, Cache.zip_map_self, List.filterMap_map, List.filterMap_map, List.map_map]
  have each : ∀ ref ∈ refs, _ = ref.listed db userId := fun ref here =>
    computedInBulk_eq_listed (contains_contentIds here) (contains_mediaRead distinct here)
  refine Prod.ext (List.map_congr_left each) (congrArg (Cache.multiSet _) ?_)
  refine (List.filterMap_congr fun ref here => ?_).trans
    (congrFun List.filterMap_eq_map' _)
  exact congrArg (fun value => some (ref.cacheKey userId, value)) (each ref here)

theorem toTlRefBulk_empty (ids : List Nat) (skipCache : Bool) :
    toTlRefBulk db .empty (db.fetch ids) userId skipCache =
      ((db.fetch ids).map (·.listed db userId),
        Cache.empty.multiSet ((db.fetch ids).map fun ref =>
          (ref.cacheKey userId, ref.listed db userId))) :=
  toTlRefBulk_uncached (fun _ here _ there => eq_of_mem_fetch here there) fun _ _ => .inr rfl

/-- The references of a list are formatted as each of them alone, and stored under the same key. -/
def FormatsAlike (db : Db) (ids : List Nat) (userId : Nat) (skipCache : Bool) : Prop :=
  (toTlRefBulk db .empty (db.fetch ids) userId skipCache).1 =
      (db.fetch ids).map (fun ref => (ref.toTlRef db .empty userId).1) ∧
    ∀ ref ∈ db.fetch ids,
      (toTlRefBulk db .empty (db.fetch ids) userId skipCache).2 (ref.cacheKey userId) =
        (ref.toTlRef db .empty userId).2 (ref.cacheKey userId)

theorem toTlRef_empty : ref.toTlRef db .empty userId =
    (ref.computed db userId,
      Cache.empty.set (ref.cacheKey userId) (ref.computed db userId)) := rfl

theorem cached_after_bulk {ids : List Nat} (here : ref ∈ db.fetch ids) :
    Cache.empty.multiSet ((db.fetch ids).map fun ref =>
      (ref.cacheKey userId, ref.listed db userId)) (ref.cacheKey userId) =
        some (ref.listed db userId) := by
  refine Cache.multiSet_of_mem ⟨_, List.mem_map_of_mem here, rfl⟩ fun pair listed same => ?_
  obtain ⟨other, there, rfl⟩ := List.mem_map.mp listed
  have sameId : other.id = ref.id := congrArg (fun key => key.2.1) same
  rw [eq_of_mem_fetch there here sameId]

end

/-- A list of references is formatted as each of them alone exactly if every one of them is alike
for both. -/
theorem formatsAlike_iff (db : Db) (ids : List Nat) (userId : Nat) (skipCache : Bool) :
    FormatsAlike db ids userId skipCache ↔ ∀ ref ∈ db.fetch ids, ref.Alike db userId := by
  rw [FormatsAlike, toTlRefBulk_empty]
  constructor
  · rintro ⟨same, -⟩ ref here
    exact listed_eq_computed_iff.mp (List.map_inj_left.mp same ref here)
  · intro alike
    refine ⟨List.map_congr_left fun ref here => listed_eq_computed_iff.mpr (alike ref here),
      fun ref here => ?_⟩
    rw [toTlRef_empty, ← listed_eq_computed_iff.mpr (alike ref here)]
    exact (cached_after_bulk here).trans (if_pos rfl).symm

private def voice : MessageRef := ⟨7, 3, .user 2, false, 0, false, none, none, false⟩

private def unheard : Db where
  refs := ⟨[voice], List.nodup_singleton _⟩
  contents := fun _ => ⟨.regular, some 2, some ⟨some .documentVoice⟩, none⟩
  mentions := .empty
  mediaReads := .empty

/-- A voice message that the user did not hear is unread alone, and read in a list. -/
theorem voice_differs :
    ((voice.toTlRef unheard .empty 1).1.mediaUnread,
      (toTlRefBulk unheard .empty (unheard.fetch [7]) 1 false).1.map (·.mediaUnread)) =
        (true, [false]) ∧
      ¬ FormatsAlike unheard [7] 1 false := by
  have differs : ((voice.toTlRef unheard .empty 1).1.mediaUnread,
      (toTlRefBulk unheard .empty (unheard.fetch [7]) 1 false).1.map (·.mediaUnread)) =
        (true, [false]) := by decide
  refine ⟨differs, fun alike => ?_⟩
  have same := congrArg (List.map MessageToFormatRef.mediaUnread) alike.1
  rw [(Prod.mk.inj differs).2] at same
  revert same
  decide

end Piltover.Formatting
