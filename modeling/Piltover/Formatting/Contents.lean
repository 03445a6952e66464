/- source: piltover/db/models/message_content.py, piltover/db/models/message_media.py,
     piltover/db/models/message_fwd_header.py, piltover/db/models/poll.py,
     piltover/db/models/poll_answer.py
   digest: The contents of messages as clients get them, with their media and polls, alone and in
     lists. -/

import Mathlib.Data.List.Dedup
import Piltover.Contents.Content
import Piltover.Formatting.References
import Piltover.Foundation.OrderedDict

set_option autoImplicit false

namespace Piltover.Formatting.InPlace

open Piltover.Contents (Entity MessageFwdHeader)
open Piltover.Foundation

abbrev Bytes := List UInt8

/-! ### Rows -/

/-- Media of the types `CONTACT`, `GEOPOINT`, `DICE` and `INVOICE`, as `static_data` stores them. -/
inductive StaticMedia
  | contact (data : Bytes)
  | geo (data : Bytes)
  | dice (data : Bytes)
  | invoice (data : Bytes)
  deriving DecidableEq, Repr

/-- What is shown without a poll; `none` where `static_data` does not read as media of the type. -/
inductive Still
  | document (fileId : Nat) (type : FileType)
  | photo (fileId : Nat) (type : FileType)
  | static (read : Option StaticMedia)
  deriving DecidableEq, Repr

inductive Medium
  | still (still : Still)
  | poll (pollId : Nat)
  deriving DecidableEq, Repr

/-- A row of `MessageMedia` with the file that it has. -/
structure MessageMedia where
  spoiler : Bool
  medium : Medium
  deriving DecidableEq, Repr

structure Poll where
  closed : Bool
  quiz : Bool
  publicVoters : Bool
  multipleChoices : Bool
  question : String
  questionEntities : List Entity
  solution : Option String
  solutionEntities : List Entity
  endsAt : Option Int
  version : Nat
  deriving DecidableEq, Repr

structure PollAnswer where
  id : Nat
  pollId : Nat
  correct : Bool
  text : String
  entities : List Entity
  option : Bytes
  deriving DecidableEq, Repr

structure PollVote where
  userId : Nat
  answerId : Nat
  deriving DecidableEq, Repr

structure ChannelPostInfo where
  views : Nat
  forwards : Nat
  deriving DecidableEq, Repr

structure MessageContent where
  message : Option String
  date : Int
  editDate : Option Int
  type : MessageType
  entities : List Entity
  mediaGroupId : Option Nat
  channelPost : Bool
  anonymous : Bool
  postAuthor : Option String
  scheduledDate : Option Int
  ttlPeriodDays : Option Nat
  replyMarkup : Option String
  noForwards : Bool
  editHide : Bool
  authorId : Option Nat
  mediaId : Option Nat
  fwdHeader : Option MessageFwdHeader
  postInfo : Option ChannelPostInfo
  viaBotId : Option Nat
  sendAsChannelId : Option Nat
  version : Nat
  reactionsVersion : Nat
  repliesVersion : Nat
  authorReactionsUnread : Bool
  canSeeReactionsList : Bool
  deriving DecidableEq, Repr

structure ContentDb where
  contents : Nat → MessageContent
  medias : Nat → MessageMedia
  polls : Nat → Poll
  pollAnswers : Table PollAnswer.id
  pollVotes : List PollVote
  now : Int

/-! ### What clients get -/

structure TLPollAnswer where
  text : String
  entities : List Entity
  option : Bytes
  deriving DecidableEq, Repr

structure TLPoll where
  id : Nat
  closed : Bool
  publicVoters : Bool
  multipleChoice : Bool
  quiz : Bool
  question : String
  questionEntities : List Entity
  answers : List TLPollAnswer
  closeDate : Option Int
  deriving DecidableEq, Repr

structure PollAnswerVoters where
  id : Nat
  pollId : Nat
  correct : Bool
  option : Bytes
  voters : Nat
  deriving DecidableEq, Repr

structure PollResults where
  id : Nat
  results : List PollAnswerVoters
  totalVoters : Nat
  solution : Option String
  solutionEntities : Option (List Entity)
  deriving DecidableEq, Repr

inductive TLMessageMedia
  | unsupported
  | document (spoiler : Bool) (fileId : Nat)
  | photo (spoiler : Bool) (fileId : Nat)
  | static (media : StaticMedia)
  | poll (poll : TLPoll) (results : PollResults)
  deriving DecidableEq, Repr

/-- `PeerUser`, `PeerChat` and `PeerChannel`, with the identifiers of the tables. -/
inductive TLPeer
  | user (id : Option Nat)
  | chat (id : Nat)
  | channel (id : Nat)
  deriving DecidableEq, Repr

structure TLMessageFwdHeader where
  savedOut : Bool
  fromId : Option TLPeer
  fromName : String
  date : Int
  channelPost : Option Nat
  postAuthor : Option String
  savedFromPeer : Option Contents.Peer
  savedFromMsgId : Option Nat
  savedFromId : Option TLPeer
  savedFromName : Option String
  savedDate : Option Int
  deriving DecidableEq, Repr

structure MessageToFormatContent where
  message : String
  date : Int
  media : Option TLMessageMedia
  editDate : Option Int
  fromId : Option TLPeer
  entities : List Entity
  groupedId : Option Nat
  post : Bool
  views : Option Nat
  forwards : Option Nat
  postAuthor : Option String
  ttlPeriod : Option Nat
  replyMarkup : Option String
  noforwards : Bool
  viaBotId : Option Nat
  editHide : Bool
  fwdFrom : Option TLMessageFwdHeader
  deriving DecidableEq, Repr

/-- The keys `poll-results:{id}:f:{version}:{time // CACHE_TTL}`. -/
abbrev ResultsKey := Nat × Nat × Int

abbrev ContentKey := Nat × Nat

structure ContentCaches where
  results : Cache ResultsKey PollResults
  contents : Cache ContentKey MessageToFormatContent

/-! ### Polls -/

def Poll.isClosedFr (self : Poll) (now : Int) : Bool := self.closed || self.endsAt.any (· < now)

def PollAnswer.toTl (self : PollAnswer) : TLPollAnswer := ⟨self.text, self.entities, self.option⟩

def CACHE_TTL : Int := 60 * 5

/-- `COUNT(…)` of the rows with each key, by the keys. -/
def countBy {κ : Type} [DecidableEq κ] (keys : List κ) : OrderedDict κ Nat :=
  OrderedDict.ofPairs (keys.dedup.map fun k => (k, keys.countP fun j => j = k))

namespace ContentDb

variable (db : ContentDb)

def pollAnswersOf (pollId : Nat) : List PollAnswer :=
  db.pollAnswers.rows.filter fun a => a.pollId == pollId

def votedPoll (v : PollVote) : Option Nat := (db.pollAnswers.get v.answerId).map PollAnswer.pollId

/-- `Poll.to_tl`. -/
def pollToTl (pollId : Nat) : TLPoll :=
  let self := db.polls pollId
  { id := pollId
    closed := self.isClosedFr db.now
    publicVoters := self.publicVoters
    multipleChoice := self.multipleChoices
    quiz := self.quiz
    question := self.question
    questionEntities := self.questionEntities
    answers := (db.pollAnswersOf pollId).map PollAnswer.toTl
    closeDate := self.endsAt }

/-- `Poll._cache_key`. -/
def resultsKey (pollId : Nat) : ResultsKey :=
  (pollId, (db.polls pollId).version, db.now / CACHE_TTL)

def makeResults (pollId : Nat) (voters : Nat → Nat) (totalVoters : Nat) : PollResults :=
  let self := db.polls pollId
  { id := pollId
    results := (db.pollAnswersOf pollId).map fun answer =>
      ⟨answer.id, pollId, self.quiz && answer.correct, answer.option, voters answer.id⟩
    totalVoters := totalVoters
    solution := if self.quiz then self.solution else none
    solutionEntities :=
      if self.quiz && self.solution.isSome then some self.solutionEntities else none }

/-- `User.filter(pollvotes__answer__poll=poll).distinct()`. -/
def votersOf (pollId : Nat) : List Nat :=
  ((db.pollVotes.filter fun v => db.votedPoll v == some pollId).map PollVote.userId).dedup

def toTlResults (cache : Cache ResultsKey PollResults) (pollId : Nat) :
    PollResults × Cache ResultsKey PollResults :=
  match cache (db.resultsKey pollId) with
  | some cached => (cached, cache)
  | none =>
    let answerIds := (db.pollAnswersOf pollId).map PollAnswer.id
    let voterCounts := countBy ((db.pollVotes.map PollVote.answerId).filter answerIds.contains)
    let results := db.makeResults pollId (fun answerId => (voterCounts.lookup answerId).getD 0)
      (db.votersOf pollId).length
    (results, cache.set (db.resultsKey pollId) results)

def toTlResultsBulk (cache : Cache ResultsKey PollResults) (pollIds : List Nat) :
    List PollResults × Cache ResultsKey PollResults :=
  let cached := OrderedDict.ofPairs ((pollIds.filterMap fun pollId =>
    cache (db.resultsKey pollId)).map fun results => (results.id, results))
  let uncached := pollIds.filter fun pollId => (cached.lookup pollId).isNone
  let answerIds := uncached.flatMap fun pollId => (db.pollAnswersOf pollId).map PollAnswer.id
  let voterCounts := countBy ((db.pollVotes.filter fun v => answerIds.contains v.answerId).filterMap
    fun v => (db.votedPoll v).map fun pollId => (pollId, v.answerId))
  let totalCounts := OrderedDict.ofPairs (uncached.dedup.map fun pollId =>
    (pollId, (db.votersOf pollId).length))
  let computed := fun pollId =>
    db.makeResults pollId (fun answerId => (voterCounts.lookup (pollId, answerId)).getD 0)
      ((totalCounts.lookup pollId).getD 0)
  (pollIds.map fun pollId => (cached.lookup pollId).getD (computed pollId),
    cache.multiSet (uncached.map fun pollId => (db.resultsKey pollId, computed pollId)))

/-! ### Media -/

def toTlSync (spoiler : Bool) : Still → TLMessageMedia
  | .document fileId _ => .document spoiler fileId
  | .photo fileId _ => .photo spoiler fileId
  | .static read => (read.map TLMessageMedia.static).getD .unsupported

/-- `MessageMedia.to_tl`. -/
def mediaToTl (cache : Cache ResultsKey PollResults) (mediaId : Nat) :
    TLMessageMedia × Cache ResultsKey PollResults :=
  match (db.medias mediaId).medium with
  | .poll pollId =>
    let (results, cache) := db.toTlResults cache pollId
    (.poll (db.pollToTl pollId) results, cache)
  | .still still => (toTlSync (db.medias mediaId).spoiler still, cache)

def pollIdOf (mediaId : Nat) : Option Nat :=
  match (db.medias mediaId).medium with
  | .poll pollId => some pollId
  | .still _ => none

/-- A turn of the loop of `MessageMedia.to_tl_bulk`. -/
def mediaEntry (pollResults : OrderedDict Nat PollResults) (mediaId : Nat) :
    Except Failure TLMessageMedia :=
  match (db.medias mediaId).medium with
  | .poll pollId =>
    -- `poll_results[media.poll.id]`
    (orRaise (pollResults.lookup pollId) .other).map fun results =>
      .poll (db.pollToTl pollId) results
  | .still still => .ok (toTlSync (db.medias mediaId).spoiler still)

/-- `MessageMedia.to_tl_bulk`; the answers of polls are loaded where they are not. -/
def mediaToTlBulk (cache : Cache ResultsKey PollResults) (mediaIds : List Nat) :
    Except Failure (List TLMessageMedia × Cache ResultsKey PollResults) := do
  let polls := mediaIds.filterMap db.pollIdOf
  let (results, cache) := db.toTlResultsBulk cache polls
  let tl ← mediaIds.mapM (db.mediaEntry (OrderedDict.ofPairs (polls.zip results)))
  pure (tl, cache)

end ContentDb

/-! ### Contents -/

/-- `MessageFwdHeader.to_tl`; zero is no identifier. -/
def fwdHeaderToTl (self : MessageFwdHeader) : TLMessageFwdHeader :=
  let savedId := self.savedId.filter (· != 0)
  { savedOut := self.savedOut
    fromId :=
      (self.fromUser.map fun id => .user (some id)).or <|
        (self.fromChat.map .chat).or (self.fromChannel.map .channel)
    fromName := self.fromName
    date := self.date
    channelPost := self.channelPostId
    postAuthor := self.channelPostAuthor
    savedFromPeer := if savedId.isSome then self.savedPeer else none
    savedFromMsgId := if self.savedPeer.isSome then savedId else none
    savedFromId := (self.savedFrom.filter (· != 0)).map fun id => .user (some id)
    savedFromName := self.savedName
    savedDate := self.savedDate }

def TTL_MULT : Nat := 86400

namespace MessageContent

variable (self : MessageContent)

def isService : Bool := self.type != .regular && self.type != .scheduled

def makeFromId : Option TLPeer :=
  match self.sendAsChannelId with
  | some channelId => some (.channel channelId)
  | none => if !(self.channelPost || self.anonymous) then some (.user self.authorId) else none

/-- A `MessageToFormatServiceContent` has no `post`, so that its constructor raises. -/
def toTlServiceContent (_ : MessageContent) : Except Failure MessageToFormatContent :=
  .error .other

/-- `_to_tl_content`. -/
def format (media : Option TLMessageMedia) (entities : List Entity) : MessageToFormatContent where
  message := self.message.getD ""
  date := self.scheduledDate.getD self.date
  media := media
  editDate := self.editDate
  fromId := self.makeFromId
  entities := entities
  groupedId := self.mediaGroupId
  post := self.channelPost
  views := self.postInfo.map ChannelPostInfo.views
  forwards := self.postInfo.map ChannelPostInfo.forwards
  postAuthor := if self.channelPost || self.anonymous then self.postAuthor else none
  ttlPeriod :=
    if self.type != .scheduled then self.ttlPeriodDays.map (· * TTL_MULT) else none
  replyMarkup := self.replyMarkup
  noforwards := self.noForwards
  viaBotId := self.viaBotId
  editHide := self.editHide
  fwdFrom := self.fwdHeader.map fwdHeaderToTl

end MessageContent

namespace ContentDb

variable (db : ContentDb)

def contentKey (contentId : Nat) : ContentKey := (contentId, (db.contents contentId).version)

/-- What `to_tl_content` gives of a message that is no service message. -/
def toTlPlain (caches : ContentCaches) (contentId : Nat) : MessageToFormatContent × ContentCaches :=
  let self := db.contents contentId
  match caches.contents (db.contentKey contentId) with
  | some cached => (cached, caches)
  | none =>
    let (media, results) :=
      match self.mediaId with
      | none => (none, caches.results)
      | some mediaId =>
        let (media, results) := db.mediaToTl caches.results mediaId
        (some media, results)
    let message := self.format media self.entities
    (message, ⟨results, caches.contents.set (db.contentKey contentId) message⟩)

def toTlContent (caches : ContentCaches) (contentId : Nat) :
    Except Failure (MessageToFormatContent × ContentCaches) :=
  let self := db.contents contentId
  if self.isService then self.toTlServiceContent.map fun content => (content, caches)
  else .ok (db.toTlPlain caches contentId)

/-- A turn of the loop: the content, and what is to be stored. -/
def bulkEntry (medias : OrderedDict Nat TLMessageMedia)
    (item : Nat × Option MessageToFormatContent) :
    Except Failure (MessageToFormatContent × Option (ContentKey × MessageToFormatContent)) :=
  let message := db.contents item.1
  if message.isService then message.toTlServiceContent.map fun content => (content, none)
  else
    match item.2 with
    | some cached => .ok (cached, none)
    | none => do
        let media ←
          match message.mediaId with
          | none => pure none
          -- `medias[message.media_id]`
          | some mediaId => (orRaise (medias.lookup mediaId) .other).map some
        let tl := message.format media message.entities
        pure (tl, some (db.contentKey item.1, tl))

def toTlContentBulk (caches : ContentCaches) (messages : List Nat) (skipCache : Bool) :
    Except Failure (List MessageToFormatContent × ContentCaches) := do
  let cached := messages.map fun id =>
    if skipCache || (db.contents id).isService then none else caches.contents (db.contentKey id)
  let mediaIds := messages.filterMap fun id =>
    if (db.contents id).isService then none else (db.contents id).mediaId
  let (mediaTls, results) ← db.mediaToTlBulk caches.results mediaIds
  let medias := OrderedDict.ofPairs (mediaIds.zip mediaTls)
  let entries ← (messages.zip cached).mapM (db.bulkEntry medias)
  pure (entries.map Prod.fst, ⟨results, caches.contents.multiSet (entries.filterMap Prod.snd)⟩)

end ContentDb

/-! ### Lists and single contents -/

section Dictionaries

variable {α ν : Type} [DecidableEq α]

theorem lookup_countBy (keys : List α) (k : α) :
    ((countBy keys).lookup k).getD 0 = keys.countP fun j => j = k := by
  rw [countBy, OrderedDict.lookup_computed]
  by_cases there : k ∈ keys
  · rw [if_pos (List.mem_dedup.mpr there), Option.getD_some]
  · rw [if_neg (mt List.mem_dedup.mp there), Option.getD_none, eq_comm, List.countP_eq_zero]
    intro j listed same
    rw [of_decide_eq_true same] at listed
    exact there listed

end Dictionaries

section Polls

variable {db : ContentDb} {cache : Cache ResultsKey PollResults} {pollId : Nat}

def ContentDb.freshResults (db : ContentDb) (pollId : Nat) : PollResults :=
  db.makeResults pollId (fun answerId => db.pollVotes.countP fun v => v.answerId = answerId)
    (db.votersOf pollId).length

theorem makeResults_congr {voters voters' : Nat → Nat} {total : Nat}
    (same : ∀ a ∈ db.pollAnswersOf pollId, voters a.id = voters' a.id) :
    db.makeResults pollId voters total = db.makeResults pollId voters' total := by
  rw [ContentDb.makeResults, ContentDb.makeResults, PollResults.mk.injEq]
  refine ⟨rfl, List.map_congr_left fun a listed => ?_, rfl, rfl, rfl⟩
  rw [same a listed]

theorem toTlResults_value : (db.toTlResults cache pollId).1 =
    (cache (db.resultsKey pollId)).getD (db.freshResults pollId) := by
  rw [ContentDb.toTlResults]
  cases cache (db.resultsKey pollId) with
  | some cached => rfl
  | none =>
    rw [Option.getD_none, ContentDb.freshResults]
    dsimp only
    refine makeResults_congr fun a listed => ?_
    rw [lookup_countBy, List.countP_filter, List.countP_map]
    refine List.countP_congr fun v _ => ?_
    rw [Function.comp_apply, Bool.and_eq_true, and_iff_left_iff_imp, decide_eq_true_iff]
    intro same
    rw [same]
    exact List.contains_iff_mem.mpr (List.mem_map_of_mem listed)

theorem count_votes {answerIds : List Nat} {a : PollAnswer} (listed : a ∈ db.pollAnswersOf pollId)
    (asked : a.id ∈ answerIds) :
    ((db.pollVotes.filter fun v => answerIds.contains v.answerId).filterMap fun v =>
      (db.votedPoll v).map fun pollId => (pollId, v.answerId)).countP (fun j => j = (pollId, a.id)) =
        db.pollVotes.countP fun v => v.answerId = a.id := by
  obtain ⟨stored, ofPoll⟩ := List.mem_filter.mp listed
  have found : db.pollAnswers.get a.id = some a := Table.get_eq_some_iff.mpr ⟨stored, rfl⟩
  rw [List.countP_filterMap, List.countP_filter]
  refine List.countP_congr fun v _ => ?_
  rw [decide_eq_true_iff]
  by_cases same : v.answerId = a.id
  · rw [ContentDb.votedPoll, same, found, List.contains_iff_mem.mpr asked]
    simpa using ofPoll
  · refine iff_of_false (fun both => same ?_) same
    cases voted : db.votedPoll v with
    | none =>
      rw [voted] at both
      cases both
    | some other =>
      rw [voted] at both
      simp only [Option.map_some, Option.getD_some, Bool.and_eq_true, decide_eq_true_eq] at both
      exact congrArg Prod.snd both.1

def Own (cache : Cache ResultsKey PollResults) : Prop :=
  ∀ key results, cache key = some results → results.id = key.1

theorem toTlResultsBulk_values (own : Own cache) (pollIds : List Nat) :
    (db.toTlResultsBulk cache pollIds).1 =
      pollIds.map fun pollId => (db.toTlResults cache pollId).1 := by
  have pairs : ((pollIds.filterMap fun pollId =>
      cache (db.resultsKey pollId)).map fun results => (results.id, results)) =
        pollIds.filterMap fun pollId =>
          (cache (db.resultsKey pollId)).map fun results => (pollId, results) := by
    rw [List.map_filterMap]
    refine List.filterMap_congr fun pollId _ => ?_
    cases found : cache (db.resultsKey pollId) with
    | none => rfl
    | some results => rw [Option.map_some, Option.map_some, own _ _ found]; rfl
  rw [ContentDb.toTlResultsBulk, pairs]
  refine List.map_congr_left fun pollId listed => ?_
  rw [toTlResults_value, OrderedDict.lookup_known, if_pos listed]
  cases unknown : cache (db.resultsKey pollId) with
  | some results => rfl
  | none =>
    have computed : pollId ∈ pollIds.filter fun pollId => ((OrderedDict.ofPairs
        (pollIds.filterMap fun pollId => (cache (db.resultsKey pollId)).map
          fun results => (pollId, results))).lookup pollId).isNone := by
      rw [List.mem_filter, OrderedDict.lookup_known, if_pos listed, unknown]
      exact ⟨listed, rfl⟩
    rw [Option.getD_none, Option.getD_none]
    dsimp only
    rw [OrderedDict.lookup_computed, if_pos (List.mem_dedup.mpr computed), Option.getD_some,
      ContentDb.freshResults]
    refine makeResults_congr fun a ofPoll => ?_
    rw [lookup_countBy, count_votes ofPoll]
    exact List.mem_flatMap.mpr ⟨pollId, computed, List.mem_map_of_mem ofPoll⟩

end Polls

section Contents

variable {db : ContentDb}

theorem mediaToTlBulk_values {cache : Cache ResultsKey PollResults} (own : Own cache)
    (mediaIds : List Nat) : (db.mediaToTlBulk cache mediaIds).map Prod.fst =
      .ok (mediaIds.map fun mediaId => (db.mediaToTl cache mediaId).1) := by
  have each : ∀ mediaId ∈ mediaIds, db.mediaEntry (OrderedDict.ofPairs
      ((mediaIds.filterMap db.pollIdOf).zip
        (db.toTlResultsBulk cache (mediaIds.filterMap db.pollIdOf)).1)) mediaId =
          .ok (db.mediaToTl cache mediaId).1 := by
    intro mediaId listed
    rw [toTlResultsBulk_values own, Cache.zip_map_self, ContentDb.mediaEntry, ContentDb.mediaToTl]
    cases medium : (db.medias mediaId).medium with
    | still still => rfl
    | poll pollId =>
      have asked : pollId ∈ mediaIds.filterMap db.pollIdOf :=
        List.mem_filterMap.mpr ⟨mediaId, listed, by rw [ContentDb.pollIdOf, medium]⟩
      dsimp only
      rw [OrderedDict.lookup_computed, if_pos asked]
      rfl
  unfold ContentDb.mediaToTlBulk
  dsimp only
  rw [mapM_eq_ok_map each]
  rfl

theorem toTlPlain_of_cached {caches : ContentCaches} {contentId : Nat}
    {cached : MessageToFormatContent}
    (found : caches.contents (db.contentKey contentId) = some cached) :
    (db.toTlPlain caches contentId).1 = cached := by
  rw [ContentDb.toTlPlain, found]

theorem bulkEntry_value {caches : ContentCaches} {medias : OrderedDict Nat TLMessageMedia} {id : Nat}
    (plain : (db.contents id).isService = false)
    (there : ∀ mediaId ∈ (db.contents id).mediaId,
      medias.lookup mediaId = some (db.mediaToTl caches.results mediaId).1) :
    (db.bulkEntry medias (id, caches.contents (db.contentKey id))).map Prod.fst =
      .ok (db.toTlPlain caches id).1 := by
  rw [ContentDb.bulkEntry, ContentDb.toTlPlain]
  dsimp only
  rw [plain, if_neg Bool.false_ne_true]
  cases caches.contents (db.contentKey id) with
  | some found => rfl
  | none =>
    cases media : (db.contents id).mediaId with
    | none => rfl
    | some mediaId =>
      dsimp only
      rw [there mediaId media]
      rfl

theorem toTlContentBulk_values {caches : ContentCaches} (own : Own caches.results)
    {messages : List Nat} {skipCache : Bool}
    (plain : ∀ id ∈ messages, (db.contents id).isService = false)
    (uncached : skipCache = true → ∀ id ∈ messages, caches.contents (db.contentKey id) = none) :
    (db.toTlContentBulk caches messages skipCache).map Prod.fst =
      .ok (messages.map fun id => (db.toTlPlain caches id).1) := by
  let mediaIds := messages.filterMap fun id =>
    if (db.contents id).isService then none else (db.contents id).mediaId
  let cached := fun id =>
    if skipCache || (db.contents id).isService then none else caches.contents (db.contentKey id)
  obtain ⟨⟨mediaTls, results⟩, formatted, values⟩ := map_eq_ok.mp
    (show (db.mediaToTlBulk caches.results mediaIds).map Prod.fst = _ from
      mediaToTlBulk_values own mediaIds)
  have known : ∀ id ∈ messages, cached id = caches.contents (db.contentKey id) := by
    intro id listed
    show (if skipCache || (db.contents id).isService then none else _) = _
    rw [plain id listed, Bool.or_false]
    cases skipCache with
    | false => rfl
    | true => exact (uncached rfl id listed).symm
  have entries : ((messages.zip (messages.map cached)).mapM
      (db.bulkEntry (OrderedDict.ofPairs (mediaIds.zip mediaTls)))).map (List.map Prod.fst) =
        .ok (messages.map fun id => (db.toTlPlain caches id).1) := by
    rw [Cache.zip_map_self, List.mapM_map]
    refine mapM_map_eq_ok fun id listed => ?_
    rw [Function.comp_apply, known id listed]
    refine bulkEntry_value (plain id listed) fun mediaId has => ?_
    have asked : mediaId ∈ mediaIds :=
      List.mem_filterMap.mpr ⟨id, listed, by rw [plain id listed]; exact has⟩
    dsimp only at values
    rw [values, Cache.zip_map_self, OrderedDict.lookup_computed, if_pos asked]
  obtain ⟨all, done, firsts⟩ := map_eq_ok.mp entries
  unfold ContentDb.toTlContentBulk
  dsimp only
  rw [formatted]
  show Except.map Prod.fst (((messages.zip (messages.map cached)).mapM
    (db.bulkEntry (OrderedDict.ofPairs (mediaIds.zip mediaTls)))) >>= _) = _
  rw [done, ← firsts]
  rfl

/-- One service message makes the whole list fail. -/
theorem plain_of_toTlContentBulk {caches : ContentCaches} {messages : List Nat} {skipCache : Bool}
    {answer : List MessageToFormatContent × ContentCaches}
    (formatted : db.toTlContentBulk caches messages skipCache = .ok answer) :
    ∀ id ∈ messages, (db.contents id).isService = false := by
  intro id listed
  unfold ContentDb.toTlContentBulk at formatted
  dsimp only at formatted
  obtain ⟨medias, -, rest⟩ := (bind_eq_ok _).mp formatted
  obtain ⟨entries, done, -⟩ := (bind_eq_ok _).mp rest
  rw [Cache.zip_map_self, List.mapM_map] at done
  obtain ⟨entry, given, -⟩ := exists_mem_of_mapM done listed
  by_contra service
  rw [Function.comp_apply, ContentDb.bulkEntry, if_pos (eq_true_of_ne_false service)] at given
  cases given

end Contents

/-! ### What is cached -/

section Cached

variable {db : ContentDb} {caches : ContentCaches}

def Plain (db : ContentDb) (contents : Cache ContentKey MessageToFormatContent) : Prop :=
  ∀ key content, contents key = some content → (db.contents key.1).isService = false

end Cached

end Piltover.Formatting.InPlace
