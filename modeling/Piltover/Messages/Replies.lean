/- source: piltover/db/models/message_ref.py
   digest: The reply counters of one message and of many at once, and when they agree. -/

import Mathlib.Data.List.Basic
import Mathlib.Data.List.Dedup
import Piltover.Failure
import Piltover.Foundation.Table

set_option autoImplicit false

namespace Piltover.Messages.Replies

open Foundation

/-! ### Rows -/

/-- A row of `MessageRef` with the channel of its peer and the version of its content. -/
structure MessageRef where
  id : Nat
  channelId : Option Nat
  contentId : Nat
  repliesVersion : Nat
  isDiscussion : Bool
  discussionId : Option Nat
  discussionTopMessageId : Option Nat
  replyToId : Option Nat
  topMessageId : Option Nat
  deriving DecidableEq, Repr

structure Channel where
  id : Nat
  discussionId : Option Nat
  deriving DecidableEq, Repr

structure Db where
  refs : Table MessageRef.id
  channels : Table Channel.id

/-- `MessageReplies`, without recent repliers. -/
structure MessageReplies where
  replies : Nat
  repliesPts : Nat
  comments : Bool
  channelId : Option Nat
  maxId : Option Nat
  deriving DecidableEq, Repr

def makeIdFrom (channelId : Nat) : Nat := channelId * 2 + 1

namespace MessageRef

variable (ref : MessageRef)

/-- `self.discussion_id or self.discussion_top_message_id`. -/
def discussionThreadId : Option Nat :=
  (ref.discussionId.filter (· != 0)).or ref.discussionTopMessageId

def hasDiscussionThread : Bool := ref.isDiscussion || ref.discussionThreadId.isSome

def cacheKeyReplies : Nat × Nat := (ref.contentId, ref.repliesVersion)

end MessageRef

/-- What the cache holds under the keys of replies. -/
abbrev Cache := Nat × Nat → Option MessageReplies

def Cache.empty : Cache := fun _ => none

/-- `COUNT(id)` and `MAX(id)` of some rows. -/
def counted (rows : List MessageRef) : Nat × Option Nat :=
  (rows.length, (rows.map MessageRef.id).max?)

namespace Db

variable (db : Db)

/-! ### One message -/

def repliesInfo (id : Nat) : Nat × Option Nat :=
  counted (db.refs.rows.filter fun m => m.replyToId == some id || m.topMessageId == some id)

/-- `to_tl_replies`: the answer, and the cache after it. -/
def toTlReplies (cache : Cache) (ref : MessageRef) :
    Except Failure (Option MessageReplies × Cache) :=
  if !ref.hasDiscussionThread then .ok (none, cache)
  else
    match cache ref.cacheKeyReplies with
    | some cached => .ok (some cached, cache)
    | none =>
      if ref.isDiscussion then
        let (count, maxId) := db.repliesInfo ref.id
        let replies := ⟨count, 0, false, none, maxId⟩
        .ok (some replies, Function.update cache ref.cacheKeyReplies (some replies))
      else
        match ref.discussionThreadId with
        | none => .ok (none, cache)
        | some threadId =>
          let (count, maxId) := db.repliesInfo threadId
          match ref.channelId.bind db.channels.get with
          -- The peer is not a channel: `None` has no `discussion_id`.
          | none => .error .other
          | some channel =>
            match channel.discussionId with
            | none => .ok (none, cache)
            | some linked =>
              let replies := ⟨count, 0, true, some (makeIdFrom linked), maxId⟩
              .ok (some replies, Function.update cache ref.cacheKeyReplies (some replies))

/-! ### Many messages -/

/-- The messages with what was cached for them: `cached_replies` has an entry for each message with
a thread, and `cache_idx` counts these. -/
def withCached : List MessageRef → List (Option MessageReplies) →
    List (MessageRef × Option MessageReplies)
  | [], _ => []
  | ref :: refs, cached =>
    if ref.hasDiscussionThread then
      (ref, cached.headD none) :: withCached refs cached.tail
    else (ref, none) :: withCached refs cached

/-- What a message that is not cached adds to `ids_to_get`. -/
def idToGet : MessageRef × Option MessageReplies → Option Nat
  | (ref, cached) =>
    if ref.hasDiscussionThread && cached.isNone then
      if ref.isDiscussion then some ref.id else ref.discussionThreadId
    else none

/-- What it adds to `broadcast_channel_ids`. -/
def broadcastChannelId : MessageRef × Option MessageReplies → Option Nat
  | (ref, cached) =>
    if ref.hasDiscussionThread && cached.isNone && !ref.isDiscussion then ref.channelId else none

/-- `GROUP BY top_message_id`, for the identifiers that are asked for. -/
def repliesStats (idsToGet : List Nat) : List (Nat × Nat × Option Nat) :=
  ((db.refs.rows.filterMap MessageRef.topMessageId).dedup.filter idsToGet.contains).map fun id =>
    (id, counted (db.refs.rows.filter fun m => m.topMessageId == some id))

def linkedDiscussionGroups (broadcastChannelIds : List Nat) (channelId : Option Nat) : Option Nat :=
  (channelId.filter broadcastChannelIds.contains).bind fun id =>
    (db.channels.get id).bind Channel.discussionId

/-- The answer for one of the messages. -/
def answer (stats : List (Nat × Nat × Option Nat)) (linkedGroups : Option Nat → Option Nat) :
    MessageRef × Option MessageReplies → Option MessageReplies
  | (ref, cached) =>
    if ref.hasDiscussionThread then
      cached.or <|
        if ref.isDiscussion then
          let (count, maxId) := (stats.lookup ref.id).getD (0, none)
          some ⟨count, 0, false, none, maxId⟩
        else
          ref.discussionThreadId.bind fun threadId =>
            (linkedGroups ref.channelId).map fun linked =>
              let (count, maxId) := (stats.lookup threadId).getD (0, none)
              ⟨count, 0, true, some (makeIdFrom linked), maxId⟩
    else none

def toTlRepliesBulk (cache : Cache) (refs : List MessageRef) :
    List (Option MessageReplies) × Cache :=
  let cacheKeys := (refs.filter MessageRef.hasDiscussionThread).map MessageRef.cacheKeyReplies
  if cacheKeys.isEmpty then (List.replicate refs.length none, cache)
  else
    let given := withCached refs (cacheKeys.map cache)
    let stats := db.repliesStats (given.filterMap idToGet)
    let linkedGroups := db.linkedDiscussionGroups (given.filterMap broadcastChannelId)
    let toCache := given.filter fun item => item.2.isNone && (answer stats linkedGroups item).isSome
    (given.map (answer stats linkedGroups), toCache.foldl (fun cache item =>
      Function.update cache item.1.cacheKeyReplies (answer stats linkedGroups item)) cache)

/-! ### What each of them counts -/

theorem withCached_eq (cache : Cache) (refs : List MessageRef) :
    withCached refs (((refs.filter MessageRef.hasDiscussionThread).map
        MessageRef.cacheKeyReplies).map cache) =
      refs.map fun ref =>
        (ref, if ref.hasDiscussionThread then cache ref.cacheKeyReplies else none) := by
  induction refs with
  | nil => rfl
  | cons ref refs ih =>
    by_cases thread : ref.hasDiscussionThread = true
    · rw [List.filter_cons_of_pos thread, List.map_cons, List.map_cons, withCached, if_pos thread,
        List.map_cons, if_pos thread, List.headD_cons, List.tail_cons, ih]
    · rw [List.filter_cons_of_neg thread, withCached, if_neg thread, List.map_cons,
        if_neg thread, ih]

theorem lookup_repliesStats {ids : List Nat} {id : Nat} (asked : id ∈ ids) :
    ((db.repliesStats ids).lookup id).getD (0, none) =
      counted (db.refs.rows.filter fun m => m.topMessageId == some id) := by
  rw [repliesStats]
  by_cases some_reply : id ∈ db.refs.rows.filterMap MessageRef.topMessageId
  · rw [List.lookup_graph _ (List.mem_filter.mpr ⟨List.mem_dedup.mpr some_reply,
      List.contains_iff_mem.mpr asked⟩)]
    rfl
  · have none_under : (db.refs.rows.filter fun m => m.topMessageId == some id) = [] := by
      refine List.filter_eq_nil_iff.mpr fun m listed under => some_reply ?_
      exact List.mem_filterMap.mpr ⟨m, listed, beq_iff_eq.mp under⟩
    have absent : ∀ pair ∈ (((db.refs.rows.filterMap MessageRef.topMessageId).dedup.filter
        ids.contains).map fun id =>
          (id, counted (db.refs.rows.filter fun m => m.topMessageId == some id))), ¬ id = pair.1 := by
      rintro pair listed rfl
      obtain ⟨other, among, rfl⟩ := List.mem_map.mp listed
      exact some_reply (List.mem_dedup.mp (List.mem_of_mem_filter among))
    rw [List.lookup_eq_none_iff.mpr fun pair listed => by simpa using absent pair listed,
      none_under]
    rfl

def linkedDiscussion (ref : MessageRef) : Option Nat :=
  (ref.channelId.bind db.channels.get).bind Channel.discussionId

def reckoned (count : Nat → Nat × Option Nat) (ref : MessageRef) : Option MessageReplies :=
  if ref.isDiscussion then some ⟨(count ref.id).1, 0, false, none, (count ref.id).2⟩
  else
    ref.discussionThreadId.bind fun threadId =>
      (db.linkedDiscussion ref).map fun linked =>
        ⟨(count threadId).1, 0, true, some (makeIdFrom linked), (count threadId).2⟩

def repliesUnder (id : Nat) : Nat × Option Nat :=
  counted (db.refs.rows.filter fun m => m.topMessageId == some id)

theorem reckoned_of_no_thread {count : Nat → Nat × Option Nat} {ref : MessageRef}
    (none_there : ref.hasDiscussionThread = false) : db.reckoned count ref = none := by
  rw [MessageRef.hasDiscussionThread, Bool.or_eq_false_iff] at none_there
  rw [reckoned, none_there.1, Option.isSome_eq_false_iff.mp none_there.2 |> Option.isNone_iff_eq_none.mp]
  rfl

theorem answer_eq {items : List (MessageRef × Option MessageReplies)} {ref : MessageRef}
    {cached : Option MessageReplies} (listed : (ref, cached) ∈ items) :
    answer (db.repliesStats (items.filterMap idToGet))
        (db.linkedDiscussionGroups (items.filterMap broadcastChannelId)) (ref, cached) =
      if ref.hasDiscussionThread then cached.or (db.reckoned db.repliesUnder ref) else none := by
  rw [answer]
  by_cases thread : ref.hasDiscussionThread = true
  swap
  · rw [if_neg thread, if_neg thread]
  rw [if_pos thread, if_pos thread]
  cases cached with
  | some _ => rfl
  | none =>
    rw [Option.none_or, Option.none_or, reckoned]
    by_cases copy : ref.isDiscussion = true
    · have asked : ref.id ∈ items.filterMap idToGet :=
        List.mem_filterMap.mpr ⟨_, listed, by simp [idToGet, thread, copy]⟩
      rw [if_pos copy, if_pos copy, db.lookup_repliesStats asked]
      rfl
    · rw [if_neg copy, if_neg copy]
      cases threadId : ref.discussionThreadId with
      | none => rfl
      | some id =>
        have asked : id ∈ items.filterMap idToGet :=
          List.mem_filterMap.mpr ⟨_, listed, by simp [idToGet, thread, copy, threadId]⟩
        have linked : db.linkedDiscussionGroups (items.filterMap broadcastChannelId)
            ref.channelId = db.linkedDiscussion ref := by
          rw [linkedDiscussionGroups, linkedDiscussion]
          cases channel : ref.channelId with
          | none => rfl
          | some channelId =>
            have among : channelId ∈ items.filterMap broadcastChannelId :=
              List.mem_filterMap.mpr ⟨_, listed, by
                simp [broadcastChannelId, thread, copy, channel]⟩
            rw [Option.filter_some, if_pos (List.contains_iff_mem.mpr among)]
            rfl
        dsimp only [Option.bind_some]
        rw [linked, db.lookup_repliesStats asked]
        rfl

theorem toTlRepliesBulk_answers (cache : Cache) (refs : List MessageRef) :
    (db.toTlRepliesBulk cache refs).1 = refs.map fun ref =>
      if ref.hasDiscussionThread then
        (cache ref.cacheKeyReplies).or (db.reckoned db.repliesUnder ref)
      else none := by
  rw [toTlRepliesBulk]
  dsimp only
  split
  · rename_i empty
    rw [List.isEmpty_iff, List.map_eq_nil_iff, List.filter_eq_nil_iff] at empty
    dsimp only
    rw [← List.map_const']
    refine List.map_congr_left fun ref listed => ?_
    rw [if_neg (empty ref listed)]
  · dsimp only
    rw [withCached_eq, List.map_map]
    refine List.map_congr_left fun ref listed => ?_
    have among := List.mem_map_of_mem (f := fun ref : MessageRef =>
      (ref, if ref.hasDiscussionThread then cache ref.cacheKeyReplies else none)) listed
    rw [Function.comp_apply, db.answer_eq among]
    by_cases thread : ref.hasDiscussionThread = true
    · rw [if_pos thread, if_pos thread, if_pos thread]
    · rw [if_neg thread, if_neg thread]

/-- The posts that have a thread are in channels that are stored. -/
def Posted (ref : MessageRef) : Prop :=
  ref.isDiscussion = false → ref.discussionThreadId.isSome = true →
    (ref.channelId.bind db.channels.get).isSome = true

instance (ref : MessageRef) : Decidable (db.Posted ref) := inferInstanceAs (Decidable (_ → _ → _))

theorem toTlReplies_value {cache : Cache} {ref : MessageRef} (posted : db.Posted ref) :
    (db.toTlReplies cache ref).map Prod.fst = .ok (if ref.hasDiscussionThread then
      (cache ref.cacheKeyReplies).or (db.reckoned db.repliesInfo ref) else none) := by
  rw [toTlReplies]
  by_cases thread : ref.hasDiscussionThread = true
  swap
  · rw [Bool.not_eq_true] at thread
    rw [thread]
    rfl
  rw [thread]
  simp only [Bool.not_true, Bool.false_eq_true, if_false, if_true]
  cases cache ref.cacheKeyReplies with
  | some cached => rfl
  | none =>
    rw [Option.none_or, reckoned]
    by_cases copy : ref.isDiscussion = true
    · rw [if_pos copy]
      dsimp only
      rw [if_pos copy]
      rfl
    · rw [if_neg copy]
      dsimp only
      rw [if_neg copy]
      cases threadId : ref.discussionThreadId with
      | none => rfl
      | some id =>
        have there := posted (Bool.eq_false_iff.mpr copy) (by rw [threadId]; rfl)
        obtain ⟨channel, found⟩ := Option.isSome_iff_exists.mp there
        simp only [linkedDiscussion, found, Option.bind_some]
        cases channel.discussionId <;> rfl

theorem toTlReplies_answer {ref : MessageRef} (posted : db.Posted ref) :
    (db.toTlReplies Cache.empty ref).map Prod.fst = .ok (db.reckoned db.repliesInfo ref) := by
  rw [db.toTlReplies_value posted]
  cases thread : ref.hasDiscussionThread with
  | true => rfl
  | false =>
    rw [db.reckoned_of_no_thread thread]
    rfl

/-! ### Agreement -/

/-- The message whose replies are told. -/
def told (ref : MessageRef) : Option Nat :=
  if ref.isDiscussion then some ref.id
  else (db.linkedDiscussion ref).bind fun _ => ref.discussionThreadId

/-- Every message that replies to a message is under it. -/
def UnderIt (id : Nat) : Prop :=
  ∀ m ∈ db.refs, m.replyToId = some id → m.topMessageId = some id

theorem repliesInfo_eq_iff (id : Nat) : db.repliesInfo id = db.repliesUnder id ↔ db.UnderIt id := by
  have part : (db.refs.rows.filter fun m => m.topMessageId == some id) =
      (db.refs.rows.filter fun m =>
        m.replyToId == some id || m.topMessageId == some id).filter
          fun m => m.topMessageId == some id := by
    rw [List.filter_filter]
    refine List.filter_congr fun m _ => ?_
    cases m.topMessageId == some id <;> simp
  rw [repliesInfo, repliesUnder]
  constructor
  · intro same m listed reply
    have long := congrArg Prod.fst same
    simp only [counted] at long
    rw [part] at long
    have all := List.length_filter_eq_length_iff.mp long.symm m (List.mem_filter.mpr ⟨listed, by
      rw [beq_iff_eq.mpr reply]; rfl⟩)
    exact beq_iff_eq.mp all
  · intro under
    refine congrArg counted (.trans ?_ part.symm)
    refine (List.filter_eq_self.mpr fun m among => ?_).symm
    obtain ⟨listed, either⟩ := List.mem_filter.mp among
    rcases Bool.or_eq_true_iff.mp either with reply | top
    · exact beq_iff_eq.mpr (under m listed (beq_iff_eq.mp reply))
    · exact top

theorem reckoned_eq_iff (ref : MessageRef) :
    db.reckoned db.repliesUnder ref = db.reckoned db.repliesInfo ref ↔
      ∀ id ∈ db.told ref, db.UnderIt id := by
  simp only [← repliesInfo_eq_iff]
  rw [reckoned, reckoned, told]
  by_cases copy : ref.isDiscussion = true
  · simp [copy, Prod.ext_iff, eq_comm]
  · cases ref.discussionThreadId <;> cases db.linkedDiscussion ref <;>
      simp [copy, Prod.ext_iff, eq_comm]

/-- Alone and among many a message gets one answer exactly if that is cached, or every message that
replies to the head of its thread is under it. -/
theorem answers_eq_iff (cache : Cache) (ref : MessageRef) :
    (if ref.hasDiscussionThread then
        (cache ref.cacheKeyReplies).or (db.reckoned db.repliesUnder ref) else none) =
      (if ref.hasDiscussionThread then
        (cache ref.cacheKeyReplies).or (db.reckoned db.repliesInfo ref) else none) ↔
      (cache ref.cacheKeyReplies = none → ∀ id ∈ db.told ref, db.UnderIt id) := by
  rw [← db.reckoned_eq_iff]
  cases thread : ref.hasDiscussionThread with
  | false =>
    refine iff_of_true rfl fun _ => ?_
    rw [db.reckoned_of_no_thread thread, db.reckoned_of_no_thread thread]
  | true =>
    cases cache ref.cacheKeyReplies with
    | some cached => exact iff_of_true rfl fun absent => nomatch absent
    | none =>
      rw [forall_prop_of_true rfl]
      exact Iff.rfl

end Db

/-- The two ways agree on a message if and only if every message that replies to the head of its
thread is under it as well. -/
theorem toTlRepliesBulk_agrees_iff (db : Db) (refs : List MessageRef)
    (posted : ∀ ref ∈ refs, db.Posted ref) :
    (db.toTlRepliesBulk Cache.empty refs).1.length = refs.length ∧
      ∀ i (_ : i < refs.length), ∃ answer,
        (db.toTlRepliesBulk Cache.empty refs).1[i]? = some answer ∧
          ((db.toTlReplies Cache.empty refs[i]).map Prod.fst = .ok answer ↔
            ∀ id ∈ db.told refs[i], db.UnderIt id) := by
  have answers : (db.toTlRepliesBulk Cache.empty refs).1 =
      refs.map (db.reckoned db.repliesUnder) := by
    rw [db.toTlRepliesBulk_answers]
    refine List.map_congr_left fun ref _ => ?_
    by_cases thread : ref.hasDiscussionThread = true
    · rw [if_pos thread]
      rfl
    · rw [if_neg thread, db.reckoned_of_no_thread (Bool.eq_false_iff.mpr thread)]
  rw [answers]
  refine ⟨List.length_map _, fun i inside => ⟨db.reckoned db.repliesUnder refs[i], ?_, ?_⟩⟩
  · rw [List.getElem?_map, List.getElem?_eq_getElem inside]
    rfl
  · rw [db.toTlReplies_answer (posted _ (List.getElem_mem inside)), ← db.reckoned_eq_iff]
    exact ⟨fun same => (Except.ok.inj same).symm, fun same => congrArg _ same.symm⟩

/-- A post with one comment, which replies to the copy in the discussion. -/
def commentedDb (top : Option Nat) : Db where
  refs := ⟨[⟨1, some 5, 1, 0, false, some 2, some 2, none, none⟩,
    ⟨2, some 6, 2, 0, true, none, none, none, none⟩,
    ⟨3, some 6, 3, 0, false, none, none, some 2, top⟩], by simp⟩
  channels := ⟨[⟨5, some 6⟩, ⟨6, none⟩], by simp⟩

private def post : MessageRef := ⟨1, some 5, 1, 0, false, some 2, some 2, none, none⟩

theorem comment_under_post : ∃ answer,
    ((commentedDb (some 2)).toTlRepliesBulk Cache.empty [post]).1[0]? = some answer ∧
      (((commentedDb (some 2)).toTlReplies Cache.empty post).map Prod.fst = .ok answer ↔
        ∀ id ∈ (commentedDb (some 2)).told post, (commentedDb (some 2)).UnderIt id) :=
  (toTlRepliesBulk_agrees_iff (commentedDb (some 2)) [post] (by decide)).2 0 (by decide)

/-- A comment that only replies to the copy is counted for the post alone and not among many. -/
theorem comment_not_counted : ¬ ∀ (db : Db) (refs : List MessageRef),
    (∀ ref ∈ refs, db.Posted ref) → refs.mapM (fun ref =>
        (db.toTlReplies Cache.empty ref).map Prod.fst) =
      .ok (db.toTlRepliesBulk Cache.empty refs).1 := by
  intro all
  have here := all (commentedDb none) [post] (by decide)
  revert here
  decide

end Piltover.Messages.Replies
