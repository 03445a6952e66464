/- source: piltover/db/models/message_ref.py, piltover/db/models/message_content.py
   digest: Lists of messages whose references and contents may be cached: what is loaded for them,
     and when each message is what it is alone. -/

import Piltover.Formatting.Contents
import Piltover.Messages.Replies
import Piltover.Reactions.Viewers

set_option autoImplicit false

namespace Piltover.Formatting.InPlace

open Piltover.Foundation
open Piltover.Messages (Replies.MessageReplies Replies.Channel)
open Piltover.Reactions (MessageReaction MessageReactions ReactionsCache)

/-! ### Rows -/

structure MessageRef where
  id : Nat
  contentId : Nat
  peer : Peer
  pinned : Bool
  version : Nat
  fromScheduled : Bool
  replyToId : Option Nat
  topMessageId : Option Nat
  discussionId : Option Nat
  discussionTopMessageId : Option Nat
  isDiscussion : Bool
  deriving DecidableEq, Repr

/-- All tables that messages are formatted from; `emoticon` is the column `reaction` of the reactions
there are. -/
structure Tables extends ContentDb where
  refs : Table MessageRef.id
  mentions : Table MessageMention.key
  mediaReads : Table MessageMediaRead.key
  reactions : Table MessageReaction.key
  emoticon : Nat → String
  channels : Table Replies.Channel.id

/-! ### The tables as the parts of a message read them -/

def channelId : Peer → Option Nat
  | .channel id => some id
  | _ => none

def Medium.fileType : Medium → Option FileType
  | .still (.document _ type) | .still (.photo _ type) => some type
  | _ => none

namespace MessageRef

variable (self : MessageRef)

def forRef : Formatting.MessageRef where
  id := self.id
  contentId := self.contentId
  peer := self.peer
  pinned := self.pinned
  version := self.version
  fromScheduled := self.fromScheduled
  replyToId := self.replyToId
  topMessageId := self.topMessageId
  isDiscussion := self.isDiscussion

theorem id_forRef : self.forRef.id = self.id := rfl

def forReplies (db : ContentDb) : Messages.Replies.MessageRef where
  id := self.id
  channelId := channelId self.peer
  contentId := self.contentId
  repliesVersion := (db.contents self.contentId).repliesVersion
  isDiscussion := self.isDiscussion
  discussionId := self.discussionId
  discussionTopMessageId := self.discussionTopMessageId
  replyToId := self.replyToId
  topMessageId := self.topMessageId

theorem id_forReplies (db : ContentDb) : (self.forReplies db).id = self.id := rfl

end MessageRef

namespace Tables

variable (db : Tables)

def forRefs : Formatting.Db where
  refs := db.refs.map MessageRef.forRef MessageRef.id_forRef
  contents := fun id =>
    let content := db.contents id
    ⟨content.type, content.authorId,
      content.mediaId.map fun mediaId => ⟨(db.medias mediaId).medium.fileType⟩,
      content.scheduledDate⟩
  mentions := db.mentions
  mediaReads := db.mediaReads

def forReactions : Reactions.Db where
  contents := fun id =>
    let content := db.contents id
    ⟨content.type == .regular, content.authorId, content.reactionsVersion,
      content.canSeeReactionsList, content.authorReactionsUnread⟩
  emoticon := db.emoticon
  reactions := db.reactions

def forReplies : Messages.Replies.Db where
  refs := db.refs.map (·.forReplies db.toContentDb) fun self => self.id_forReplies db.toContentDb
  channels := db.channels

end Tables

/-- The posts that have a thread are in channels. -/
structure Db extends Tables where
  posted : ∀ ref ∈ refs, toTables.forReplies.Posted (ref.forReplies toContentDb)

/-! ### What is loaded -/

/-- What a reference can be loaded with, besides its content. -/
inductive Relation
  | peer | media | mediaFile | poll | pollAnswers | postInfo | fwdHeader | savedPeer
  deriving DecidableEq, Repr

/-- `_FETCH_CACHED_REFS` and `_FETCH_CACHED_CONTENTS`. -/
def FETCH_CACHED_REFS : List Relation := [.peer, .media, .mediaFile]

def FETCH_CACHED_CONTENTS : List Relation :=
  [.peer, .media, .mediaFile, .poll, .pollAnswers, .postInfo, .fwdHeader, .savedPeer]

/-- A reference as a handler has it, with its content and perhaps more. -/
structure Fetched (db : Db) where
  row : MessageRef
  stored : row ∈ db.refs
  loaded : List Relation

structure Caches (db : Db) extends ContentCaches where
  refs : RefCache
  reactions : ReactionsCache
  replies : Messages.Replies.Cache
  own : Own results
  plain : Plain db.toContentDb contents

namespace MessageContent

variable (self : MessageContent)

/-- The relations that `_to_tl_ref` and what is before it in `to_tl_ref_bulk` read. -/
def refNeeds : List Relation :=
  [.peer, .media] ++ if self.mediaId.isSome then [.mediaFile] else []

/-- The relations that `to_tl_content_bulk` reads; of polls it loads the answers itself. -/
def contentNeeds (db : ContentDb) : List Relation :=
  if self.isService then []
  else
    .media :: (self.mediaId.elim [] fun mediaId =>
      match (db.medias mediaId).medium with
      | .poll _ => [.poll]
      | .still _ => [.mediaFile]) ++
    (if self.postInfo.isSome then [.postInfo] else []) ++
    self.fwdHeader.elim [] fun header =>
      .fwdHeader :: if header.savedPeer.isSome then [.savedPeer] else []

end MessageContent

/-- The relations that `to_tl_replies_bulk` reads of a reference whose replies are not cached. -/
def repliesNeeds (ref : Messages.Replies.MessageRef) : List Relation :=
  if ref.hasDiscussionThread && !ref.isDiscussion then [.peer] else []

/-! ### Messages -/

structure MessageToFormat where
  ref : MessageToFormatRef
  content : MessageToFormatContent
  reactions : Option MessageReactions
  replies : Option Replies.MessageReplies
  deriving DecidableEq, Repr

section

variable {db : Db} (caches : Caches db) (userId : Nat) (withReactions : Bool)

/-- `MessageRef.to_tl`, with all relations loaded. -/
def toTl (ref : Fetched db) : Except Failure MessageToFormat := do
  let self := ref.row
  let (content, _) ← db.toTlContent caches.toContentCaches self.contentId
  let replies ← (db.forReplies.toTlReplies caches.replies
    (self.forReplies db.toContentDb)).map Prod.fst
  pure
    { ref := (self.forRef.toTlRef db.forRefs caches.refs userId).1
      content := content
      reactions :=
        if withReactions && (db.contents self.contentId).type == .regular then
          (Reactions.toTlReactions db.forReactions caches.reactions userId self.contentId).1
        else none
      replies := replies }

def refCached (ref : Fetched db) : Option MessageToFormatRef :=
  caches.refs (ref.row.forRef.cacheKey userId)

def contentCached (ref : Fetched db) : Option MessageToFormatContent :=
  caches.contents (db.contentKey ref.row.contentId)

/-- The relations of a reference once `need_fetch_refs` and `need_fetch_contents` are fetched. -/
def loadedOf (ref : Fetched db) : List Relation :=
  if (contentCached caches ref).isNone && !(db.contents ref.row.contentId).isService then
    ref.loaded ++ FETCH_CACHED_CONTENTS
  else if (refCached caches userId ref).isNone then ref.loaded ++ FETCH_CACHED_REFS
  else ref.loaded

def requireLoaded (needs : Fetched db → List Relation) (refs : List (Fetched db)) :
    Except Failure Unit :=
  require (refs.all fun ref => (needs ref).all (loadedOf caches userId ref).contains) .other

end

def pop {α : Type} (l : List α) : Except Failure (α × List α) :=
  (orRaise l.getLast? .other).map fun a => (a, l.dropLast)

/-- What is cached, or else popped. -/
def takeOrPop {α : Type} (cached : Option α) (l : List α) : Except Failure (α × List α) :=
  match cached with
  | some a => .ok (a, l)
  | none => pop l

/-- The loop over the references, their cached parts, reactions and replies. -/
def mergeResults : List (Option MessageToFormatRef × Option MessageToFormatContent ×
      Option MessageReactions × Option Replies.MessageReplies) →
    List MessageToFormatRef → List MessageToFormatContent → Except Failure (List MessageToFormat)
  | [], _, _ => .ok []
  | (ref, content, reactions, replies) :: rest, refsTl, contentsTl => do
      let (ref, refsTl) ← takeOrPop ref refsTl
      let (content, contentsTl) ← takeOrPop content contentsTl
      let results ← mergeResults rest refsTl contentsTl
      pure (⟨ref, content, reactions, replies⟩ :: results)

section

variable {db : Db} (caches : Caches db) (userId : Nat) (withReactions : Bool)

/-- `to_tl_bulk_maybecached` for a list that is not empty. -/
def formatAll (refs : List (Fetched db)) : Except Failure (List MessageToFormat) := do
  let refsCached := refs.map (refCached caches userId)
  let contentsCached := refs.map (contentCached caches)
  let uncachedRefs := ((refs.zip refsCached).filter fun item => item.2.isNone).map Prod.fst
  let uncachedContents :=
    ((refs.zip contentsCached).filter fun item => item.2.isNone).map Prod.fst
  requireLoaded caches userId (fun ref => (db.contents ref.row.contentId).refNeeds) uncachedRefs
  let (refsTl, _) := toTlRefBulk db.forRefs caches.refs (uncachedRefs.map (·.row.forRef)) userId true
  requireLoaded caches userId
    (fun ref => (db.contents ref.row.contentId).contentNeeds db.toContentDb) uncachedContents
  let (contentsTl, _) ← db.toTlContentBulk caches.toContentCaches
    (uncachedContents.map (·.row.contentId)) true
  let reactionssTl :=
    if withReactions then
      (Reactions.toTlReactionsBulk db.forReactions caches.reactions userId
        (refs.map (·.row.contentId))).1
    else refs.map fun _ => none
  requireLoaded caches userId (fun ref => repliesNeeds (ref.row.forReplies db.toContentDb))
    (refs.filter fun ref =>
      (caches.replies (ref.row.forReplies db.toContentDb).cacheKeyReplies).isNone)
  let (repliesTl, _) := db.forReplies.toTlRepliesBulk caches.replies
    (refs.map (·.row.forReplies db.toContentDb))
  mergeResults (refsCached.zip (contentsCached.zip (reactionssTl.zip repliesTl))) refsTl.reverse
    contentsTl.reverse

def toTlBulkMaybecached (refs : List (Fetched db)) : Except Failure (List MessageToFormat) :=
  if refs.isEmpty then .ok [] else formatAll caches userId withReactions refs

/-- Every message of a list is formatted, and as it is alone. -/
def FormattedInPlace (refs : List (Fetched db)) : Prop :=
  ∃ messages, toTlBulkMaybecached caches userId withReactions refs = .ok messages ∧
    refs.mapM (toTl caches userId withReactions) = .ok messages

end

section Loaded

variable {db : Db} {caches : Caches db} {userId : Nat} {ref : Fetched db}

theorem mem_fetch_cached_contents (relation : Relation) : relation ∈ FETCH_CACHED_CONTENTS := by
  cases relation <;> decide

theorem refNeeds_loaded (uncached : refCached caches userId ref = none) :
    ∀ relation ∈ (db.contents ref.row.contentId).refNeeds,
      relation ∈ loadedOf caches userId ref := by
  intro relation needed
  have fetched : relation ∈ FETCH_CACHED_REFS := by
    rw [MessageContent.refNeeds] at needed
    revert relation
    cases (db.contents ref.row.contentId).mediaId.isSome <;> decide
  rw [loadedOf]
  split
  · exact List.mem_append_right _ (mem_fetch_cached_contents relation)
  · rw [uncached, Option.isNone_none, if_pos rfl]
    exact List.mem_append_right _ fetched

theorem contentNeeds_loaded (uncached : contentCached caches ref = none) :
    ∀ relation ∈ (db.contents ref.row.contentId).contentNeeds db.toContentDb,
      relation ∈ loadedOf caches userId ref := by
  intro relation needed
  cases service : (db.contents ref.row.contentId).isService with
  | true =>
    rw [MessageContent.contentNeeds, if_pos service] at needed
    cases needed
  | false =>
    rw [loadedOf, uncached, service]
    exact List.mem_append_right _ (mem_fetch_cached_contents relation)

theorem requireLoaded_eq_ok {needs : Fetched db → List Relation} {refs : List (Fetched db)} :
    requireLoaded caches userId needs refs = .ok () ↔
      ∀ ref ∈ refs, ∀ relation ∈ needs ref, relation ∈ loadedOf caches userId ref := by
  rw [requireLoaded, require_eq_ok]
  simp only [List.all_eq_true, List.contains_iff_mem]

end Loaded

section Merging

theorem pop_concat {α : Type} (a : α) (l : List α) : pop (l ++ [a]) = .ok (a, l) := by
  rw [pop, List.getLast?_concat, List.dropLast_concat]
  rfl

theorem takeOrPop_reverse {α β : Type} {cached : α → Option β} {computed : α → β} {a : α}
    {rest : List α} :
    takeOrPop (cached a) (((a :: rest).filter fun a => (cached a).isNone).map computed).reverse =
      .ok ((cached a).getD (computed a),
        ((rest.filter fun a => (cached a).isNone).map computed).reverse) := by
  cases here : cached a with
  | some b => rw [List.filter_cons_of_neg (by simp [here])]; rfl
  | none =>
    rw [List.filter_cons_of_pos (by simp [here]), List.map_cons, List.reverse_cons]
    exact pop_concat _ _

variable {α : Type} {refCached : α → Option MessageToFormatRef} {refTl : α → MessageToFormatRef}
  {contentCached : α → Option MessageToFormatContent} {contentTl : α → MessageToFormatContent} {l : List α}
  {reactions : List (Option MessageReactions)} {replies : List (Option Replies.MessageReplies)}

/-- Nothing is popped where nothing is left, and each part comes to its own reference. -/
theorem mergeResults_eq :
    mergeResults ((l.map refCached).zip ((l.map contentCached).zip (reactions.zip replies)))
        ((l.filter fun a => (refCached a).isNone).map refTl).reverse
        ((l.filter fun a => (contentCached a).isNone).map contentTl).reverse =
      .ok ((l.zip (reactions.zip replies)).map fun item =>
        ⟨(refCached item.1).getD (refTl item.1), (contentCached item.1).getD (contentTl item.1),
          item.2.1, item.2.2⟩) := by
  induction l generalizing reactions replies with
  | nil => rfl
  | cons a l ih =>
    cases reactions with
    | nil => rfl
    | cons reaction reactions =>
      cases replies with
      | nil => rfl
      | cons reply replies =>
        simp only [List.map_cons, List.zip_cons_cons]
        rw [mergeResults, takeOrPop_reverse]
        dsimp only [bind, Except.bind]
        rw [takeOrPop_reverse]
        dsimp only
        rw [ih]
        rfl

theorem merged_eq_iff {refHere refAlone : α → MessageToFormatRef}
    {contentHere contentAlone : α → MessageToFormatContent} {reactionsAlone : α → Option MessageReactions}
    {repliesHere repliesAlone : α → Option Replies.MessageReplies}
    (long : reactions.length = l.length) :
    ((l.zip (reactions.zip (l.map repliesHere))).map fun item =>
        (⟨refHere item.1, contentHere item.1, item.2.1, item.2.2⟩ : MessageToFormat)) =
      l.map (fun a => ⟨refAlone a, contentAlone a, reactionsAlone a, repliesAlone a⟩) ↔
    (∀ a ∈ l, refHere a = refAlone a) ∧ (∀ a ∈ l, contentHere a = contentAlone a) ∧
      reactions = l.map reactionsAlone ∧ ∀ a ∈ l, repliesHere a = repliesAlone a := by
  induction l generalizing reactions with
  | nil =>
    rw [List.eq_nil_of_length_eq_zero long]
    simp
  | cons a l ih =>
    obtain ⟨reaction, reactions, rfl⟩ := List.exists_cons_of_length_eq_add_one long
    simp only [List.map_cons, List.zip_cons_cons, List.cons.injEq, MessageToFormat.mk.injEq,
      List.forall_mem_cons]
    rw [ih (Nat.succ.inj long)]
    tauto

end Merging

section Together

variable {db : Db} {caches : Caches db} {userId : Nat} {withReactions : Bool}
  {refs : List (Fetched db)} {ref : Fetched db}

theorem filter_zip {α : Type} (cached : Fetched db → Option α) :
    ((refs.zip (refs.map cached)).filter fun item => item.2.isNone).map Prod.fst =
      refs.filter fun ref => (cached ref).isNone := by
  rw [Cache.zip_map_self, List.filter_map, List.map_map]
  exact List.map_id _

theorem distinct_forRef (refs : List (Fetched db)) :
    ∀ ref ∈ refs.map (·.row.forRef), ∀ other ∈ refs.map (·.row.forRef),
      ref.id = other.id → ref = other := by
  intro ref here other there same
  obtain ⟨ref, -, rfl⟩ := List.mem_map.mp here
  obtain ⟨other, -, rfl⟩ := List.mem_map.mp there
  exact congrArg _ (Table.eq_of_key_eq ref.stored other.stored same)

def refIn (caches : Caches db) (userId : Nat) (ref : Fetched db) : MessageToFormatRef :=
  (refCached caches userId ref).getD (ref.row.forRef.listed db.forRefs userId)

def contentIn (caches : Caches db) (ref : Fetched db) : MessageToFormatContent :=
  (contentCached caches ref).getD (db.toTlPlain caches.toContentCaches ref.row.contentId).1

theorem contentIn_eq (ref : Fetched db) :
    contentIn caches ref = (db.toTlPlain caches.toContentCaches ref.row.contentId).1 := by
  rw [contentIn, contentCached]
  cases found : caches.contents (db.contentKey ref.row.contentId) with
  | none => rfl
  | some cached => exact (toTlPlain_of_cached found).symm

theorem refIn_eq_iff :
    refIn caches userId ref = (ref.row.forRef.toTlRef db.forRefs caches.refs userId).1 ↔
      (refCached caches userId ref = none → ref.row.forRef.Alike db.forRefs userId) := by
  rw [refIn, refCached, MessageRef.toTlRef]
  cases caches.refs (ref.row.forRef.cacheKey userId) with
  | some cached => exact iff_of_true rfl fun absent => nomatch absent
  | none =>
    rw [forall_prop_of_true rfl]
    exact listed_eq_computed_iff

theorem peer_mem_loadedOf : Relation.peer ∈ loadedOf caches userId ref ↔
    Relation.peer ∈ ref.loaded ∨ refCached caches userId ref = none ∨
      contentCached caches ref = none ∧ (db.contents ref.row.contentId).isService = false := by
  rw [loadedOf]
  cases contentCached caches ref <;> cases (db.contents ref.row.contentId).isService <;>
    cases refCached caches userId ref <;> simp [FETCH_CACHED_REFS, FETCH_CACHED_CONTENTS]

def computesReplies (caches : Caches db) (refs : List (Fetched db)) : List (Fetched db) :=
  refs.filter fun ref =>
    (caches.replies (ref.row.forReplies db.toContentDb).cacheKeyReplies).isNone

def reactionsOf (caches : Caches db) (userId : Nat) (withReactions : Bool)
    (refs : List (Fetched db)) : List (Option MessageReactions) :=
  if withReactions then
    (Reactions.toTlReactionsBulk db.forReactions caches.reactions userId
      (refs.map (·.row.contentId))).1
  else refs.map fun _ => none

def repliesOf (caches : Caches db) (count : Nat → Nat × Option Nat) (ref : Fetched db) :
    Option Replies.MessageReplies :=
  let self := ref.row.forReplies db.toContentDb
  if self.hasDiscussionThread then
    (caches.replies self.cacheKeyReplies).or (db.forReplies.reckoned count self)
  else none

/-- What a list gives, if what is read of the peers is loaded. -/
def merged (caches : Caches db) (userId : Nat) (withReactions : Bool) (refs : List (Fetched db)) :
    List MessageToFormat :=
  (refs.zip ((reactionsOf caches userId withReactions refs).zip
    (refs.map (repliesOf caches db.forReplies.repliesUnder)))).map fun item =>
      ⟨refIn caches userId item.1, contentIn caches item.1, item.2.1, item.2.2⟩

/-- The relations of references and contents are always there; only those that replies need may be
missing. -/
theorem formatAll_eq (plain : ∀ ref ∈ refs, (db.contents ref.row.contentId).isService = false) :
    formatAll caches userId withReactions refs =
    (requireLoaded caches userId (fun ref => repliesNeeds (ref.row.forReplies db.toContentDb))
      (computesReplies caches refs)).map fun _ => merged caches userId withReactions refs := by
  have refsLoaded : requireLoaded caches userId
      (fun ref => (db.contents ref.row.contentId).refNeeds)
      (refs.filter fun ref => (refCached caches userId ref).isNone) = .ok () :=
    requireLoaded_eq_ok.mpr fun ref listed =>
      refNeeds_loaded (Option.isNone_iff_eq_none.mp (List.mem_filter.mp listed).2)
  have contentsLoaded : requireLoaded caches userId
      (fun ref => (db.contents ref.row.contentId).contentNeeds db.toContentDb)
      (refs.filter fun ref => (contentCached caches ref).isNone) = .ok () :=
    requireLoaded_eq_ok.mpr fun ref listed =>
      contentNeeds_loaded (Option.isNone_iff_eq_none.mp (List.mem_filter.mp listed).2)
  have absent : ∀ id ∈ (refs.filter fun ref => (contentCached caches ref).isNone).map
      (·.row.contentId), caches.contents (db.contentKey id) = none := by
    intro id listed
    obtain ⟨ref, uncached, rfl⟩ := List.mem_map.mp listed
    exact Option.isNone_iff_eq_none.mp (List.mem_filter.mp uncached).2
  have plainIds : ∀ id ∈ (refs.filter fun ref => (contentCached caches ref).isNone).map
      (·.row.contentId), (db.contents id).isService = false := by
    intro id listed
    obtain ⟨ref, uncached, rfl⟩ := List.mem_map.mp listed
    exact plain ref (List.mem_of_mem_filter uncached)
  obtain ⟨⟨contentsTl, after⟩, formatted, values⟩ := map_eq_ok.mp
    (show (db.toTlContentBulk caches.toContentCaches
        ((refs.filter fun ref => (contentCached caches ref).isNone).map (·.row.contentId)) true).map
          Prod.fst = _ from
      toTlContentBulk_values caches.own plainIds fun _ => absent)
  dsimp only at values
  unfold formatAll computesReplies
  dsimp only
  rw [filter_zip, filter_zip, refsLoaded, contentsLoaded,
    toTlRefBulk_uncached (distinct_forRef _) fun _ _ => .inl rfl, formatted, values]
  dsimp only [bind, Except.bind]
  rw [db.forReplies.toTlRepliesBulk_answers, List.map_map, List.map_map, List.map_map]
  cases requireLoaded caches userId (fun ref => repliesNeeds (ref.row.forReplies db.toContentDb))
      (refs.filter fun ref =>
        (caches.replies (ref.row.forReplies db.toContentDb).cacheKeyReplies).isNone) with
  | error failure => rfl
  | ok _ => exact mergeResults_eq

theorem plain_of_formatAll {messages : List MessageToFormat}
    (formatted : formatAll caches userId withReactions refs = .ok messages) :
    ∀ ref ∈ refs, (db.contents ref.row.contentId).isService = false := by
  intro ref listed
  by_contra service
  have uncached : contentCached caches ref = none := by
    cases found : contentCached caches ref with
    | none => rfl
    | some cached => exact absurd (caches.plain _ cached found) service
  unfold formatAll at formatted
  dsimp only at formatted
  obtain ⟨-, rest⟩ := check_bind_eq_ok.mp formatted
  obtain ⟨-, rest⟩ := check_bind_eq_ok.mp rest
  obtain ⟨answer, contents, -⟩ := (bind_eq_ok _).mp rest
  rw [filter_zip] at contents
  refine service (plain_of_toTlContentBulk contents _ (List.mem_map_of_mem ?_))
  exact List.mem_filter.mpr ⟨listed, by rw [uncached]; rfl⟩

def reactionsAlone (caches : Caches db) (userId : Nat) (withReactions : Bool) (ref : Fetched db) :
    Option MessageReactions :=
  if withReactions && (db.contents ref.row.contentId).type == .regular then
    (Reactions.toTlReactions db.forReactions caches.reactions userId ref.row.contentId).1
  else none

theorem toTl_eq (plain : (db.contents ref.row.contentId).isService = false) :
    toTl caches userId withReactions ref =
      .ok ⟨(ref.row.forRef.toTlRef db.forRefs caches.refs userId).1,
        (db.toTlPlain caches.toContentCaches ref.row.contentId).1,
        reactionsAlone caches userId withReactions ref,
        repliesOf caches db.forReplies.repliesInfo ref⟩ := by
  unfold toTl ContentDb.toTlContent
  dsimp only
  rw [plain, if_neg Bool.false_ne_true,
    db.forReplies.toTlReplies_value (db.posted ref.row ref.stored)]
  rfl

theorem length_reactionsOf : (reactionsOf caches userId withReactions refs).length = refs.length := by
  rw [reactionsOf]
  split
  · rw [Reactions.length_toTlReactionsBulk, List.length_map]
  · exact List.length_map _

def askingFor (caches : Caches db) (userId : Nat) (refs : List (Fetched db)) : List Nat :=
  (refs.map (·.row.contentId)).filter
    (Reactions.fetches db.forReactions caches.reactions userId)

theorem reactionsOf_eq_iff : reactionsOf caches userId withReactions refs =
      refs.map (reactionsAlone caches userId withReactions) ↔
    ∀ ref ∈ refs, withReactions = true →
      Reactions.uncached db.forReactions caches.reactions userId ref.row.contentId = true →
        Reactions.FitsAmong db.forReactions userId (refs.map (·.row.contentId))
          (askingFor caches userId refs) ref.row.contentId := by
  rw [reactionsOf]
  cases withReactions with
  | false => exact iff_of_true rfl fun _ _ given => nomatch given
  | true =>
    have alone : refs.map (reactionsAlone caches userId true) =
        (refs.map (·.row.contentId)).map fun m =>
          (Reactions.toTlReactions db.forReactions caches.reactions userId m).1 := by
      rw [List.map_map]
      refine List.map_congr_left fun ref _ => ?_
      have regular : (db.forReactions.contents ref.row.contentId).regular =
          ((db.contents ref.row.contentId).type == .regular) := rfl
      rw [reactionsAlone, Function.comp_apply, Bool.true_and, Reactions.toTlReactions_eq, regular]
      cases (db.contents ref.row.contentId).type == .regular <;> rfl
    rw [if_pos rfl, alone, Reactions.toTlReactionsBulk_alone_iff, List.forall_mem_map]
    exact forall₂_congr fun ref _ => ⟨fun fits _ => fits, fun fits => fits rfl⟩

end Together

/-- A message of a list is formatted as it is alone. It is no service message; its reference and its
reactions look the same in lists, unless they are cached; and unless its replies are cached, those
that reply to the head of its thread are under it, and the conversation of a post is loaded or
fetched. -/
structure FitsIn {db : Db} (caches : Caches db) (userId : Nat) (withReactions : Bool)
    (refs : List (Fetched db)) (ref : Fetched db) : Prop where
  plain : (db.contents ref.row.contentId).isService = false
  alike : refCached caches userId ref = none → ref.row.forRef.Alike db.forRefs userId
  reactions : withReactions = true →
    Reactions.uncached db.forReactions caches.reactions userId ref.row.contentId = true →
      Reactions.FitsAmong db.forReactions userId (refs.map (·.row.contentId))
        (askingFor caches userId refs) ref.row.contentId
  under : caches.replies (ref.row.forReplies db.toContentDb).cacheKeyReplies = none →
    ∀ id ∈ db.forReplies.told (ref.row.forReplies db.toContentDb), db.forReplies.UnderIt id
  peer : caches.replies (ref.row.forReplies db.toContentDb).cacheKeyReplies = none →
    (ref.row.forReplies db.toContentDb).hasDiscussionThread = true → ref.row.isDiscussion = false →
      Relation.peer ∈ ref.loaded ∨ refCached caches userId ref = none ∨
        contentCached caches ref = none ∧ (db.contents ref.row.contentId).isService = false

section

variable {db : Db} {caches : Caches db} {userId : Nat} {withReactions : Bool}
  {refs : List (Fetched db)}

theorem repliesLoaded_iff :
    requireLoaded caches userId (fun ref => repliesNeeds (ref.row.forReplies db.toContentDb))
        (computesReplies caches refs) = .ok () ↔
      ∀ ref ∈ refs, caches.replies (ref.row.forReplies db.toContentDb).cacheKeyReplies = none →
        (ref.row.forReplies db.toContentDb).hasDiscussionThread = true →
          ref.row.isDiscussion = false →
            Relation.peer ∈ ref.loaded ∨ refCached caches userId ref = none ∨
              contentCached caches ref = none ∧
                (db.contents ref.row.contentId).isService = false := by
  rw [requireLoaded_eq_ok, computesReplies]
  constructor
  · intro all ref listed absent thread post
    refine peer_mem_loadedOf.mp (all ref (List.mem_filter.mpr ⟨listed, ?_⟩) .peer ?_)
    · rw [absent]
      rfl
    · rw [repliesNeeds, thread, show (ref.row.forReplies db.toContentDb).isDiscussion = false from post]
      exact List.mem_singleton_self _
  · intro each ref listed relation needed
    obtain ⟨inList, absent⟩ := List.mem_filter.mp listed
    rw [repliesNeeds] at needed
    split at needed
    case isTrue both =>
        rw [Bool.and_eq_true, Bool.not_eq_true'] at both
        rw [List.mem_singleton.mp needed]
        exact peer_mem_loadedOf.mpr
          (each ref inList (Option.isNone_iff_eq_none.mp absent) both.1 both.2)
    case isFalse _ => cases needed

theorem toTlBulkMaybecached_eq : toTlBulkMaybecached caches userId withReactions refs =
    formatAll caches userId withReactions refs := by
  rw [toTlBulkMaybecached]
  cases refs with
  | nil =>
    rw [formatAll_eq fun ref listed => absurd listed List.not_mem_nil]
    rfl
  | cons ref refs => rfl

theorem merged_eq_alone_iff : merged caches userId withReactions refs = refs.map (fun ref =>
      ⟨(ref.row.forRef.toTlRef db.forRefs caches.refs userId).1,
        (db.toTlPlain caches.toContentCaches ref.row.contentId).1,
        reactionsAlone caches userId withReactions ref,
        repliesOf caches db.forReplies.repliesInfo ref⟩) ↔
    (∀ ref ∈ refs, refCached caches userId ref = none → ref.row.forRef.Alike db.forRefs userId) ∧
      reactionsOf caches userId withReactions refs =
        refs.map (reactionsAlone caches userId withReactions) ∧
      ∀ ref ∈ refs, caches.replies (ref.row.forReplies db.toContentDb).cacheKeyReplies = none →
        ∀ id ∈ db.forReplies.told (ref.row.forReplies db.toContentDb),
          db.forReplies.UnderIt id := by
  rw [merged, merged_eq_iff length_reactionsOf]
  refine and_congr (forall₂_congr fun ref _ => refIn_eq_iff) ?_
  rw [and_iff_right fun ref _ => contentIn_eq ref]
  exact and_congr_right' (forall₂_congr fun ref _ => db.forReplies.answers_eq_iff _ _)

end

/-- A list of messages is formatted, and each of them as it is alone, exactly if every one of them
fits in. -/
theorem formattedInPlace_iff (db : Db) (caches : Caches db) (userId : Nat) (withReactions : Bool)
    (refs : List (Fetched db)) :
    FormattedInPlace caches userId withReactions refs ↔
      ∀ ref ∈ refs, FitsIn caches userId withReactions refs ref := by
  rw [FormattedInPlace, toTlBulkMaybecached_eq]
  constructor
  · rintro ⟨messages, together, apart⟩
    have plain := plain_of_formatAll together
    rw [mapM_eq_ok_map fun ref listed => toTl_eq (plain ref listed)] at apart
    rw [formatAll_eq plain, ← apart, map_eq_ok] at together
    obtain ⟨_, loaded, same⟩ := together
    obtain ⟨alike, reactions, under⟩ := merged_eq_alone_iff.mp same
    intro ref listed
    exact ⟨plain ref listed, alike ref listed, reactionsOf_eq_iff.mp reactions ref listed,
      under ref listed, repliesLoaded_iff.mp loaded ref listed⟩
  · intro fits
    have plain := fun ref listed => (fits ref listed).plain
    refine ⟨_, ?_, mapM_eq_ok_map fun ref listed => toTl_eq (plain ref listed)⟩
    rw [formatAll_eq plain, map_eq_ok]
    exact ⟨(), repliesLoaded_iff.mpr fun ref listed => (fits ref listed).peer,
      merged_eq_alone_iff.mpr ⟨fun ref listed => (fits ref listed).alike,
        reactionsOf_eq_iff.mpr fun ref listed => (fits ref listed).reactions,
        fun ref listed => (fits ref listed).under⟩⟩

private def post : MessageRef :=
  ⟨1, 1, .channel 5, false, 0, false, none, none, some 2, some 2, false⟩

private def discussed : MessageRef :=
  ⟨2, 2, .channel 6, false, 0, false, none, none, none, none, true⟩

private def announcement : MessageContent :=
  { message := some "hi", date := 0, editDate := none, type := .regular, entities := [],
    mediaGroupId := none, channelPost := true, anonymous := false,
    postAuthor := none, scheduledDate := none, ttlPeriodDays := none, replyMarkup := none,
    noForwards := false, editHide := false, authorId := some 1, mediaId := none, fwdHeader := none,
    postInfo := none, viaBotId := none, sendAsChannelId := none, version := 0,
    reactionsVersion := 0, repliesVersion := 1, authorReactionsUnread := false,
    canSeeReactionsList := false }

private theorem linkedChannels_unique :
    ([⟨5, some 6⟩, ⟨6, none⟩].map Replies.Channel.id).Nodup := by
  decide

private def channelDb : Db where
  contents := fun _ => announcement
  medias := fun _ => ⟨false, .still (.static none)⟩
  polls := fun _ => ⟨false, false, false, false, "", [], none, [], none, 0⟩
  pollAnswers := .empty
  pollVotes := []
  now := 0
  refs := ⟨[post, discussed], by decide⟩
  mentions := .empty
  mediaReads := .empty
  reactions := .empty
  emoticon := fun _ => ""
  channels := ⟨[⟨5, some 6⟩, ⟨6, none⟩], linkedChannels_unique⟩
  posted := fun ref listed => by
    rcases List.mem_pair.mp listed with rfl | rfl <;> decide

/-- The post is cached, but for the number of its comments. -/
private def postCached : Caches channelDb where
  refs := Cache.empty.set (post.forRef.cacheKey 1) (post.forRef.computed channelDb.forRefs 1)
  results := .empty
  contents := Cache.empty.set (1, 0) (announcement.format none [])
  reactions := .empty
  replies := .empty
  own := fun _ _ found => nomatch found
  plain := fun _ _ _ => rfl

/-- The conversation of a post is read for its comments, and not fetched where the post is cached. -/
theorem post_not_formatted :
    toTlBulkMaybecached postCached 1 true [⟨post, List.mem_pair.mpr (.inl rfl), []⟩] =
        .error .other ∧
      ¬ ∀ (db : Db) (caches : Caches db) (userId : Nat) (withReactions : Bool)
        (refs : List (Fetched db)), FormattedInPlace caches userId withReactions refs := by
  have fails : toTlBulkMaybecached postCached 1 true
      [⟨post, List.mem_pair.mpr (.inl rfl), []⟩] = .error .other := rfl
  refine ⟨fails, fun all => ?_⟩
  obtain ⟨messages, formatted, -⟩ :=
    all channelDb postCached 1 true [⟨post, List.mem_pair.mpr (.inl rfl), []⟩]
  rw [fails] at formatted
  cases formatted

end Piltover.Formatting.InPlace
