/- source: piltover/app/handlers/messages/sending.py, piltover/app/utils/forum_topics.py
   digest: Replies stay in their thread, and in which runs. -/

import Mathlib.Logic.Relation
import Piltover.Forums.Topics
import Piltover.Foundation.Runs

set_option autoImplicit false

namespace Piltover.Forums

open Piltover.Foundation
open Piltover.Foundation.Runs
open History (truthy MessageType)

/-! ### Threads and where messages belong -/

namespace Db

variable (db : Db)

structure IsTopicOf (channelId : ChannelId) (t : ForumTopic) : Prop where
  here : t ∈ db.topics
  channel : t.channelId = channelId
  alive : t.deleted = false

/-- The root of the thread of a message: the mirror of a post is one itself, then its top message,
then the message as the first of a topic. -/
def threadRoot (m : MessageRef) : Option RefId :=
  if m.isMirror then some m.id
  else m.topMessageId.or
    (if (db.getTopicByTopMsg m.channelId m.id).isSome then some m.id else none)

/-- What is right about the message that a user sends: it has the root of the replied message as top
message, belongs to one topic in a forum, and to a closed topic only if the user manages topics. -/
structure Placed (userId : UserId) (m : MessageRef) : Prop where
  root : ∀ p ∈ db.refs, m.replyToId = some p.id → ∀ root, db.threadRoot p = some root →
    m.topMessageId = some root
  topic : ∀ channel, db.channels.get m.channelId = some channel → channel.forum = true →
    ∃! t, db.IsTopicOf m.channelId t ∧ m.topMessageId = some t.topMessageId
  closed : ∀ channel t, db.channels.get m.channelId = some channel → db.IsTopicOf m.channelId t →
    m.topMessageId = some t.topMessageId → t.closed = true → db.managesTopics channel userId = true

/-- The first message replies to the second. -/
structure Answers (m p : MessageRef) : Prop where
  here : m ∈ db.refs
  there : p ∈ db.refs
  reply : m.replyToId = some p.id

def IsRoot (m : MessageRef) : Prop :=
  m.isMirror = true ∨ (db.getTopicByTopMsg m.channelId m.id).isSome = true

/-- A reply to a root, or to a reply in its thread, at any depth. -/
def Descends (m root : MessageRef) : Prop :=
  db.IsRoot root ∧ Relation.TransGen db.Answers m root

/-- All messages of a thread carry its root and are counted as its replies. -/
structure Threaded : Prop where
  top : ∀ m root, db.Descends m root → m.topMessageId = some root.id
  counted : ∀ m root, db.Descends m root → m ∈ db.repliesTo root.id
  shown : ∀ root shower shown, root.isMirror = true →
    shower = root ∨ shower.discussionThreadId = some root.id →
    (db.toTlReplies shower).1 = some shown →
    ∀ l : List MessageRef, l.Nodup → (∀ m ∈ l, db.Descends m root) → l.length ≤ shown.replies

def GoesToGeneral (channel : Channel) (r : Send) (t : ForumTopic) : Prop :=
  r.namesTopic channel = none ∧ channel.forum = true ∧ r.opposite = true ∧
    db.getGeneralTopic channel.id = some t

/-- What is asked of a request for the channel and the message it replies to, if any. -/
structure Fits (channel : Channel) (r : Send) (replied : Option MessageRef) : Prop where
  /-- The topic that is named, or else the general one, is the thread of the replied message. -/
  answers : ∀ p, replied = some p → ∀ root, db.threadRoot p = some root →
    r.namesTopic channel = some root ∨
      ∃ t, db.GoesToGeneral channel r t ∧ t.topMessageId = root
  /-- Without a named topic there is a general one, and the user may write there. -/
  general : channel.forum = true → r.namesTopic channel = none →
    ∃ t, db.GoesToGeneral channel r t ∧
      (t.closed = true → db.managesTopics channel r.userId = true)

end Db

/-- What the event does is right. -/
def KeepsThreads (db : Db) : Event → Prop
  | .send r => ∀ after m, db.sendMessageInternal r = .ok (after, m) → db.Placed r.userId m
  | .sendScheduled messageId => ∀ userId after m, db.sendScheduled messageId = some (after, m) →
      db.Placed userId m
  | _ => True

/-- When it is: what is asked of the messages that are sent, now or at a date set before. -/
def InThreads (db : Db) : Event → Prop
  | .send r => ∀ channel named replied, db.channels.get r.channelId = some channel →
      r.checkSpamBlocked = .ok () → db.namedTopic channel r = .ok named →
      db.findReply channel r none = .ok replied → db.Fits channel r replied
  | .sendScheduled messageId => ∀ m ∈ db.refs, m.id = messageId → m.type = .scheduled →
      (∀ channel, db.channels.get m.channelId = some channel → channel.forum = false) ∧
      ∀ p ∈ db.refs, m.replyToId = some p.id → db.threadRoot p = none
  | _ => True

/-! ### What holds in every state of such a run -/

/-- The second message is the first one but for columns that do not place it. -/
structure MessageRef.Alike (m m' : MessageRef) : Prop where
  id : m'.id = m.id
  channelId : m'.channelId = m.channelId
  replyToId : m'.replyToId = m.replyToId
  topMessageId : m'.topMessageId = m.topMessageId
  isMirror : m'.isMirror = m.isMirror

theorem MessageRef.Alike.refl (m : MessageRef) : m.Alike m := ⟨rfl, rfl, rfl, rfl, rfl⟩

theorem MessageRef.Alike.threadRoot_eq {m m' : MessageRef} (alike : m.Alike m') (db : Db) :
    db.threadRoot m' = db.threadRoot m := by
  rw [Db.threadRoot, Db.threadRoot, alike.isMirror, alike.id, alike.topMessageId, alike.channelId]

theorem setNull_eq_some_iff {ids : List RefId} {column : Option RefId} {id : RefId} :
    setNull ids column = some id ↔ column = some id ∧ id ∉ ids := by
  rw [setNull, Option.filter_eq_some_iff]
  simp

namespace Db

def IsFirst (db : Db) (m : MessageRef) : Prop :=
  ∃ t, db.IsTopicOf m.channelId t ∧ t.topMessageId = m.id

structure Sound (db : Db) : Prop where
  fresh : ∀ m ∈ db.refs, m.id < db.nextId
  refers : ∀ m ∈ db.refs, ∀ id, m.replyToId = some id → id < db.nextId
  alive : ∀ t ∈ db.topics, t.deleted = false
  firsts : ∀ t ∈ db.topics, ∃ m ∈ db.refs, m.id = t.topMessageId ∧ m.channelId = t.channelId ∧
    m.isMirror = false ∧ m.topMessageId = none
  once : ∀ t ∈ db.topics, ∀ u ∈ db.topics, t.topMessageId = u.topMessageId → t = u
  mirrors : ∀ m ∈ db.refs, m.isMirror = true → m.topMessageId = none
  tops : ∀ m ∈ db.refs, ∀ id, m.topMessageId = some id → ∃ t ∈ db.topics, t.topMessageId = id
  threaded : ∀ m p, db.Answers m p → ∀ root, db.threadRoot p = some root →
    m.topMessageId = some root

variable {db : Db} {m p : MessageRef} {t : ForumTopic} {channelId : ChannelId} {id root : RefId}

theorem getTopicByTopMsg_eq_some (found : db.getTopicByTopMsg channelId id = some t) :
    db.IsTopicOf channelId t ∧ t.topMessageId = id := by
  have here := List.mem_of_find?_eq_some found
  have passed := List.find?_some found
  simp only [Bool.and_eq_true, beq_iff_eq, Bool.not_eq_true'] at passed
  obtain ⟨⟨channel, top⟩, alive⟩ := passed
  exact ⟨⟨here, channel, alive⟩, top⟩

theorem isSome_getTopicByTopMsg_iff :
    (db.getTopicByTopMsg m.channelId m.id).isSome = true ↔ db.IsFirst m := by
  constructor
  · intro some
    obtain ⟨t, found⟩ := Option.isSome_iff_exists.mp some
    exact ⟨t, getTopicByTopMsg_eq_some found⟩
  · rintro ⟨t, ⟨here, channel, alive⟩, top⟩
    rw [getTopicByTopMsg, List.find?_isSome]
    exact ⟨t, here, by simp [channel, top, alive]⟩

theorem threadRoot_eq_some_iff : db.threadRoot m = some root ↔
    m.isMirror = true ∧ m.id = root ∨ m.isMirror = false ∧
      (m.topMessageId = some root ∨ m.topMessageId = none ∧ db.IsFirst m ∧ m.id = root) := by
  rw [threadRoot]
  cases m.isMirror with
  | true => simp
  | false =>
    cases m.topMessageId with
    | some top => simp
    | none => simp [← isSome_getTopicByTopMsg_iff]

theorem isRoot_iff : db.IsRoot m ↔ m.isMirror = true ∨ db.IsFirst m := by
  rw [IsRoot, isSome_getTopicByTopMsg_iff]

theorem getGeneralTopic_eq_some (found : db.getGeneralTopic channelId = some t) :
    db.IsTopicOf channelId t := by
  rw [getGeneralTopic, Option.filter_eq_some_iff] at found
  obtain ⟨at1, alive⟩ := found
  obtain ⟨here, key⟩ := Table.get_eq_some_iff.mp at1
  exact ⟨here, congrArg Prod.fst key, by simpa using alive⟩

theorem findRef_eq_some (found : db.findRef channelId id = some m) :
    m ∈ db.refs ∧ m.id = id ∧ m.channelId = channelId := by
  rw [findRef, Option.filter_eq_some_iff] at found
  obtain ⟨here, same⟩ := found
  obtain ⟨here, key⟩ := Table.get_eq_some_iff.mp here
  exact ⟨here, key, by simpa using same⟩

theorem mem_of_descends {r : MessageRef} (below : db.Descends m r) :
    m ∈ db.refs ∧ r ∈ db.refs := by
  obtain ⟨-, chain⟩ := below
  constructor
  · obtain ⟨_, first, -⟩ := Relation.TransGen.head'_iff.mp chain
    exact first.here
  · obtain ⟨_, -, last⟩ := Relation.TransGen.tail'_iff.mp chain
    exact last.there

section Sending

variable {channel : Channel} {r : Send} {named replied top : Option MessageRef} {after : Db}

theorem mem_of_findReply (found : db.findReply channel r none = .ok (some p)) : p ∈ db.refs := by
  rw [findReply, check_bind_eq_ok] at found
  obtain ⟨-, found⟩ := found
  have found := Except.ok.inj found
  rw [Option.none_or, Option.bind_eq_some_iff] at found
  obtain ⟨id, -, here⟩ := found
  exact (findRef_eq_some here).1

/-- The thread of the replied message is never looked for: where a message is found, its identifier
was given. -/
theorem replyToTop_eq (found : db.findReply channel r none = .ok replied) :
    db.replyToTop channel r replied top = top := by
  cases replied with
  | none => rfl
  | some p =>
    rw [findReply, check_bind_eq_ok] at found
    have found := Except.ok.inj found.2
    rw [Option.none_or, Option.bind_eq_some_iff] at found
    obtain ⟨id, given, -⟩ := found
    rw [Option.bind_eq_some_iff] at given
    obtain ⟨id', given, -⟩ := given
    unfold replyToTop
    rw [given]

theorem sendMessageInternal_eq_ok : db.sendMessageInternal r = .ok (after, m) ↔
    ∃ channel named replied top, db.channels.get r.channelId = some channel ∧
      r.checkSpamBlocked = .ok () ∧ db.namedTopic channel r = .ok named ∧
      db.findReply channel r none = .ok replied ∧
      db.orGeneral channel r named = .ok top ∧ m = db.drafted channel r replied top ∧
      after = (db.addRef m).touchPost top := by
  rw [sendMessageInternal, orRaise_bind_eq_ok]
  refine exists_congr fun channel => ?_
  constructor
  · rintro ⟨found, sent⟩
    obtain ⟨passed, sent⟩ := check_bind_eq_ok.mp sent
    obtain ⟨named, given, sent⟩ := (bind_eq_ok _).mp sent
    obtain ⟨replied, answered, sent⟩ := (bind_eq_ok _).mp sent
    obtain ⟨top, put, sent⟩ := (bind_eq_ok _).mp sent
    rw [replyToTop_eq answered] at put
    obtain ⟨rfl, rfl⟩ := Prod.mk.inj (Except.ok.inj sent)
    exact ⟨named, replied, top, found, passed, given, answered, put, rfl, rfl⟩
  · rintro ⟨named, replied, top, found, passed, given, answered, put, rfl, rfl⟩
    refine ⟨found, check_bind_eq_ok.mpr ⟨passed, ?_⟩⟩
    refine (bind_eq_ok _).mpr ⟨named, given, (bind_eq_ok _).mpr ⟨replied, answered, ?_⟩⟩
    refine (bind_eq_ok _).mpr ⟨top, ?_, rfl⟩
    rw [replyToTop_eq answered]
    exact put

/-- A message goes to the topic that is named, else to the general one if there is one, else to
none. -/
theorem top_cases (given : db.namedTopic channel r = .ok named)
    (put : db.orGeneral channel r named = .ok top) :
    (∃ t, r.namesTopic channel = some t.topMessageId ∧ db.IsTopicOf channel.id t ∧
      (t.closed = true → db.managesTopics channel r.userId = true) ∧
      top.map MessageRef.id = some t.topMessageId) ∨
    (∃ t, db.GoesToGeneral channel r t ∧ top.map MessageRef.id = some t.topMessageId) ∨
    r.namesTopic channel = none ∧ (∀ t, ¬ db.GoesToGeneral channel r t) ∧ top = none := by
  cases names : r.namesTopic channel with
  | some topMsgId =>
    rw [namedTopic, names] at given
    obtain ⟨first, resolved, rfl⟩ := map_eq_ok.mp given
    rw [resolveTopicTopMessage, orRaise_bind_eq_ok] at resolved
    obtain ⟨t, found, resolved⟩ := resolved
    rw [check_bind_eq_ok, require_eq_ok, orRaise_eq_ok] at resolved
    obtain ⟨open', here⟩ := resolved
    obtain ⟨isTopic, same⟩ := getTopicByTopMsg_eq_some found
    have put : some first = top := Except.ok.inj put
    refine .inl ⟨t, congrArg some same.symm, isTopic, ?_, ?_⟩
    · intro closed
      rw [closed] at open'
      exact open'
    · rw [← put, same]
      exact congrArg some (findRef_eq_some here).2.1
  | none =>
    rw [namedTopic, names] at given
    obtain rfl := Except.ok.inj given
    refine .inr ?_
    by_cases falls : r.opposite = true ∧ channel.forum = true
    · rw [orGeneral, Option.isNone_none, falls.1, falls.2, Bool.and_self, Bool.and_self,
        if_pos rfl] at put
      cases found : db.getGeneralTopic channel.id with
      | some general =>
        rw [found] at put
        obtain ⟨first, here, rfl⟩ := map_eq_ok.mp put
        have same := (Table.get_eq_some_iff.mp (orRaise_eq_ok.mp here)).2
        exact .inl ⟨general, ⟨names, falls.2, falls.1, found⟩, congrArg some same⟩
      | none =>
        rw [found] at put
        refine .inr ⟨rfl, ?_, (Except.ok.inj put).symm⟩
        rintro t ⟨-, -, -, found'⟩
        rw [found] at found'
        cases found'
    · have stays : (Option.isNone (none : Option MessageRef) && r.opposite && channel.forum) =
          false := by
        rw [Option.isNone_none, Bool.true_and, ← Bool.not_eq_true, Bool.and_eq_true]
        exact falls
      rw [orGeneral, stays] at put
      refine .inr ⟨rfl, ?_, (Except.ok.inj put).symm⟩
      rintro t ⟨-, forum, opposite, -⟩
      exact falls ⟨opposite, forum⟩

end Sending

section Scheduled

variable {after : Db} {messageId : RefId}

theorem sendScheduled_eq_some (sent : db.sendScheduled messageId = some (after, m)) :
    ∃ scheduled ∈ db.refs, scheduled.id = messageId ∧ scheduled.type = .scheduled ∧
      m = { id := db.nextId, channelId := scheduled.channelId, type := .regular
            authorId := scheduled.authorId, replyToId := scheduled.replyToId
            fromScheduled := true } ∧
      after = (db.addRef m).removeRefs [messageId] := by
  obtain ⟨scheduled, found, eq⟩ := Option.map_eq_some_iff.mp sent
  obtain ⟨found, type⟩ := Option.filter_eq_some_iff.mp found
  obtain ⟨here, same⟩ := Table.get_eq_some_iff.mp found
  obtain ⟨rfl, rfl⟩ := Prod.mk.inj eq
  exact ⟨scheduled, here, same, by simpa using type, rfl, rfl⟩

theorem sendScheduled_iff :
    KeepsThreads db (.sendScheduled messageId) ↔ InThreads db (.sendScheduled messageId) := by
  constructor
  · rintro right scheduled here rfl type
    have sent : ∃ after m, db.sendScheduled scheduled.id = some (after, m) ∧
        m.channelId = scheduled.channelId ∧ m.replyToId = scheduled.replyToId ∧
        m.topMessageId = none := by
      refine ⟨_, _, Option.map_eq_some_iff.mpr ⟨scheduled, ?_, rfl⟩, rfl, rfl, rfl⟩
      exact Option.filter_eq_some_iff.mpr ⟨Table.get_eq_some_iff.mpr ⟨here, rfl⟩, by simp [type]⟩
    obtain ⟨after, m, sent, channelId, reply, none⟩ := sent
    have placed := right 0 after m sent
    constructor
    · intro channel found
      by_contra forum
      obtain ⟨t, ⟨-, at'⟩, -⟩ := placed.topic channel (channelId ▸ found) (by simpa using forum)
      rw [none] at at'
      cases at'
    · intro p there replied
      cases isRoot : db.threadRoot p with
      | none => rfl
      | some root =>
        have at' := placed.root p there (reply.trans replied) root isRoot
        rw [none] at at'
        cases at'
  · intro good userId after m sent
    obtain ⟨scheduled, here, same, type, rfl, -⟩ := sendScheduled_eq_some sent
    obtain ⟨plain, nowhere⟩ := good scheduled here same type
    constructor
    · intro p there reply root isRoot
      rw [nowhere p there reply] at isRoot
      cases isRoot
    · intro channel found forum
      rw [plain channel found] at forum
      cases forum
    · intro channel t found isTopic at'
      cases at'

end Scheduled

namespace Sound

theorem initial : Db.initial.Sound where
  fresh _ here := absurd here (Table.notMem_empty _)
  refers _ here := absurd here (Table.notMem_empty _)
  alive _ here := absurd here (Table.notMem_empty _)
  firsts _ here := absurd here (Table.notMem_empty _)
  once _ here := absurd here (Table.notMem_empty _)
  mirrors _ here := absurd here (Table.notMem_empty _)
  tops _ here := absurd here (Table.notMem_empty _)
  threaded _ _ answers := absurd answers.here (Table.notMem_empty _)

variable (sound : db.Sound)

include sound

theorem first_of_isFirst (first : db.IsFirst m) (here : m ∈ db.refs) :
    m.isMirror = false ∧ m.topMessageId = none := by
  obtain ⟨t, ⟨listed, -, -⟩, top⟩ := first
  obtain ⟨a, there, same, -, plain, none⟩ := sound.firsts t listed
  obtain rfl := Table.eq_of_key_eq there here (same.trans top)
  exact ⟨plain, none⟩

theorem threadRoot_of_isRoot (here : m ∈ db.refs) (root : db.IsRoot m) :
    db.threadRoot m = some m.id := by
  rw [threadRoot_eq_some_iff]
  rcases isRoot_iff.mp root with mirror | first
  · exact .inl ⟨mirror, rfl⟩
  · obtain ⟨plain, none⟩ := sound.first_of_isFirst first here
    exact .inr ⟨plain, .inr ⟨none, first, rfl⟩⟩

theorem threadRoot_of_top (here : m ∈ db.refs) (top : m.topMessageId = some root) :
    db.threadRoot m = some root := by
  rw [threadRoot_eq_some_iff]
  refine .inr ⟨?_, .inl top⟩
  by_contra mirror
  rw [sound.mirrors m here (by simpa using mirror)] at top
  cases top

theorem top_of_descends {r : MessageRef} (below : db.Descends m r) :
    m.topMessageId = some r.id := by
  obtain ⟨isRoot, chain⟩ := below
  induction chain using Relation.TransGen.head_induction_on with
  | single answers =>
    exact sound.threaded _ _ answers r.id (sound.threadRoot_of_isRoot answers.there isRoot)
  | head answers _ ih =>
    exact sound.threaded _ _ answers r.id (sound.threadRoot_of_top answers.there ih)

theorem not_descends_mirror {r : MessageRef} (mirror : r.isMirror = true) :
    ¬ db.Descends m r := by
  intro below
  obtain ⟨here, there⟩ := mem_of_descends below
  obtain ⟨t, listed, top⟩ := sound.tops m here r.id (sound.top_of_descends below)
  obtain ⟨a, first, same, -, plain, -⟩ := sound.firsts t listed
  obtain rfl := Table.eq_of_key_eq first there (same.trans top)
  rw [mirror] at plain
  cases plain

theorem toThreaded : db.Threaded where
  top _ _ below := sound.top_of_descends below
  counted m r below := by
    have here := (mem_of_descends below).1
    refine List.mem_filter.mpr ⟨here, ?_⟩
    rw [sound.top_of_descends below]
    simp
  shown r shower shown mirror _ _ l _ all := by
    cases l with
    | nil => exact Nat.zero_le _
    | cons m l =>
      have below := all m List.mem_cons_self
      exact absurd below (sound.not_descends_mirror mirror)

theorem of_same {after : Db} (refs : after.refs = db.refs) (topics : after.topics = db.topics)
    (nextId : after.nextId = db.nextId) : after.Sound := by
  obtain ⟨channels, participants, _, _, _, cache⟩ := after
  subst refs topics nextId
  exact ⟨sound.fresh, sound.refers, sound.alive, sound.firsts, sound.once, sound.mirrors,
    sound.tops, fun m p answers => sound.threaded m p ⟨answers.here, answers.there, answers.reply⟩⟩

theorem first_lt (here : t ∈ db.topics) : t.topMessageId < db.nextId := by
  obtain ⟨m, first, same, -⟩ := sound.firsts t here
  rw [← same]
  exact sound.fresh m first

theorem mem_addRef {new : MessageRef} :
    m ∈ (db.addRef new).refs ↔ m ∈ db.refs ∨ m = { new with id := db.nextId } :=
  Table.mem_insert (Table.get_eq_none_iff.mpr fun m here => Nat.ne_of_lt (sound.fresh m here))

theorem addRef {new : MessageRef} (refers : ∀ id, new.replyToId = some id → id < db.nextId)
    (mirror : new.isMirror = true → new.topMessageId = none)
    (top : ∀ id, new.topMessageId = some id → ∃ t ∈ db.topics, t.topMessageId = id)
    (threaded : ∀ p ∈ db.refs, new.replyToId = some p.id → ∀ root, db.threadRoot p = some root →
      new.topMessageId = some root) : (db.addRef new).Sound := by
  have cases : ∀ m ∈ (db.addRef new).refs, m ∈ db.refs ∨ m = { new with id := db.nextId } :=
    fun m here => sound.mem_addRef.mp here
  constructor
  · intro m here
    rcases cases m here with old | rfl
    · exact Nat.lt_succ_of_lt (sound.fresh m old)
    · exact Nat.lt_succ_self _
  · intro m here id reply
    rcases cases m here with old | rfl
    · exact Nat.lt_succ_of_lt (sound.refers m old id reply)
    · exact Nat.lt_succ_of_lt (refers id reply)
  · exact sound.alive
  · intro t here
    obtain ⟨m, first, rest⟩ := sound.firsts t here
    exact ⟨m, sound.mem_addRef.mpr (.inl first), rest⟩
  · exact sound.once
  · intro m here
    rcases cases m here with old | rfl
    · exact sound.mirrors m old
    · exact mirror
  · intro m here
    rcases cases m here with old | rfl
    · exact sound.tops m old
    · exact top
  · rintro m p ⟨here, there, reply⟩ root isRoot
    have replied : p ∈ db.refs := by
      rcases cases p there with old | rfl
      · exact old
      · have before : db.nextId < db.nextId := by
          rcases cases m here with old | rfl
          · exact sound.refers m old _ reply
          · exact refers _ reply
        exact absurd before (Nat.lt_irrefl _)
    rcases cases m here with old | rfl
    · exact sound.threaded m p ⟨old, replied, reply⟩ root isRoot
    · exact threaded p replied reply root isRoot

theorem updateRefs {which : MessageRef → Bool} {change : MessageRef → MessageRef}
    {keeps : ∀ m, (change m).id = m.id} (alike : ∀ m : MessageRef, m.Alike (change m)) :
    (db.updateRefs which change keeps).Sound := by
  have row : ∀ m ∈ (db.updateRefs which change keeps).refs, ∃ old ∈ db.refs, old.Alike m := by
    intro m here
    have changed : m ∈ db.refs.modify which change keeps := here
    obtain ⟨old, there, rfl⟩ := Table.mem_modify.mp changed
    refine ⟨old, there, ?_⟩
    split
    · exact alike old
    · exact .refl old
  have row' : ∀ old ∈ db.refs, ∃ m ∈ (db.updateRefs which change keeps).refs, old.Alike m := by
    intro old there
    have changed : (if which old then change old else old) ∈ db.refs.modify which change keeps :=
      Table.mem_modify.mpr ⟨old, there, rfl⟩
    refine ⟨_, changed, ?_⟩
    split
    · exact alike old
    · exact .refl old
  constructor
  · intro m here
    obtain ⟨old, there, same⟩ := row m here
    exact same.id ▸ sound.fresh old there
  · intro m here
    obtain ⟨old, there, same⟩ := row m here
    exact same.replyToId ▸ sound.refers old there
  · exact sound.alive
  · intro t here
    obtain ⟨old, there, id, channel, plain, none⟩ := sound.firsts t here
    obtain ⟨m, first, same⟩ := row' old there
    exact ⟨m, first, same.id.trans id, same.channelId.trans channel, same.isMirror.trans plain,
      same.topMessageId.trans none⟩
  · exact sound.once
  · intro m here
    obtain ⟨old, there, same⟩ := row m here
    exact same.isMirror ▸ same.topMessageId ▸ sound.mirrors old there
  · intro m here
    obtain ⟨old, there, same⟩ := row m here
    exact same.topMessageId ▸ sound.tops old there
  · rintro m p ⟨here, there, reply⟩ root isRoot
    obtain ⟨old, here, same⟩ := row m here
    obtain ⟨oldP, there, sameP⟩ := row p there
    have answers : db.Answers old oldP :=
      ⟨here, there, by rw [← same.replyToId, reply, sameP.id]⟩
    have isRoot : db.threadRoot oldP = some root := by
      rw [← sameP.threadRoot_eq]
      exact isRoot
    exact same.topMessageId.trans (sound.threaded old oldP answers root isRoot)

theorem removeRefs (ids : List RefId) : (db.removeRefs ids).Sound := by
  have row : ∀ m ∈ (db.removeRefs ids).refs, ∃ old ∈ db.refs, old.id ∉ ids ∧
      old.forget ids = m := by
    intro m here
    have changed : m ∈ (db.refs.remove fun m => ids.contains m.id).modify (fun _ => true)
      (MessageRef.forget ids) fun _ => rfl := here
    obtain ⟨old, kept, rfl⟩ := Table.mem_modify.mp changed
    obtain ⟨there, spared⟩ := Table.mem_remove.mp kept
    exact ⟨old, there, by simpa using spared, rfl⟩
  have row' : ∀ old ∈ db.refs, old.id ∉ ids → old.forget ids ∈ (db.removeRefs ids).refs := by
    intro old there spared
    have kept : old ∈ db.refs.remove fun m => ids.contains m.id :=
      Table.mem_remove.mpr ⟨there, by simpa using spared⟩
    have changed : old.forget ids ∈ (db.refs.remove fun m => ids.contains m.id).modify
      (fun _ => true) (MessageRef.forget ids) fun _ => rfl :=
      Table.mem_modify.mpr ⟨old, kept, rfl⟩
    exact changed
  have topic : ∀ t, t ∈ (db.removeRefs ids).topics ↔ t ∈ db.topics ∧ t.topMessageId ∉ ids := by
    intro t
    have kept : t ∈ (db.removeRefs ids).topics ↔ t ∈ db.topics ∧
      ids.contains t.topMessageId = false := Table.mem_remove
    rw [kept]
    simp
  constructor
  · intro m here
    obtain ⟨old, there, -, rfl⟩ := row m here
    exact sound.fresh old there
  · intro m here id reply
    obtain ⟨old, there, -, rfl⟩ := row m here
    exact sound.refers old there id (setNull_eq_some_iff.mp reply).1
  · intro t here
    exact sound.alive t ((topic t).mp here).1
  · intro t here
    obtain ⟨listed, spared⟩ := (topic t).mp here
    obtain ⟨m, there, id, channel, plain, none⟩ := sound.firsts t listed
    refine ⟨m.forget ids, row' m there (id ▸ spared), id, channel, plain, ?_⟩
    show setNull ids m.topMessageId = Option.none
    rw [none]
    rfl
  · intro t here u there
    exact sound.once t ((topic t).mp here).1 u ((topic u).mp there).1
  · intro m here mirror
    obtain ⟨old, there, -, rfl⟩ := row m here
    show setNull ids old.topMessageId = none
    rw [sound.mirrors old there mirror]
    rfl
  · intro m here id top
    obtain ⟨old, there, -, rfl⟩ := row m here
    obtain ⟨top, spared⟩ := setNull_eq_some_iff.mp top
    obtain ⟨t, listed, rfl⟩ := sound.tops old there id top
    exact ⟨t, (topic t).mpr ⟨listed, spared⟩, rfl⟩
  · rintro m p ⟨here, there, reply⟩ root isRoot
    obtain ⟨old, was, -, rfl⟩ := row m here
    obtain ⟨oldP, wasP, sparedP, rfl⟩ := row p there
    have answers : db.Answers old oldP := ⟨was, wasP, (setNull_eq_some_iff.mp reply).1⟩
    -- A root that is still there was one before.
    have before : db.threadRoot oldP = some root ∧ root ∉ ids := by
      rcases threadRoot_eq_some_iff.mp isRoot with ⟨mirror, rfl⟩ | ⟨plain, top | ⟨-, first, rfl⟩⟩
      · exact ⟨threadRoot_eq_some_iff.mpr (.inl ⟨mirror, rfl⟩), sparedP⟩
      · obtain ⟨top, spared⟩ := setNull_eq_some_iff.mp top
        exact ⟨threadRoot_eq_some_iff.mpr (.inr ⟨plain, .inl top⟩), spared⟩
      · obtain ⟨t, ⟨listed, channel, alive⟩, top⟩ := first
        have first : db.IsFirst oldP := ⟨t, ⟨((topic t).mp listed).1, channel, alive⟩, top⟩
        exact ⟨sound.threadRoot_of_isRoot wasP (isRoot_iff.mpr (.inr first)), sparedP⟩
    exact setNull_eq_some_iff.mpr ⟨sound.threaded old oldP answers root before.1, before.2⟩

theorem addTopic {userId topicId : Nat} {after : Db}
    (added : db.addTopic channelId userId topicId = .ok after) : after.Sound := by
  rw [Db.addTopic, check_bind_eq_ok, require_eq_ok, Option.isNone_iff_eq_none] at added
  obtain ⟨free, added⟩ := added
  cases added
  have stored : (db.addRef { id := 0, channelId, type := serviceTopicCreate
                             authorId := some userId }).Sound :=
    sound.addRef (fun _ reply => by cases reply) (fun _ => rfl) (fun _ top => by cases top)
      fun _ _ reply => by cases reply
  generalize made : ({ topicId, channelId, topMessageId := db.nextId } : ForumTopic) = t at *
  have listed : ∀ u, u ∈ db.topics.insert t ↔ u ∈ db.topics ∨ u = t := by
    intro u
    exact Table.mem_insert (by rw [← made]; exact free)
  constructor
  · exact stored.fresh
  · exact stored.refers
  · intro u here
    rcases (listed u).mp here with old | rfl
    · exact sound.alive u old
    · rw [← made]
  · intro u here
    rcases (listed u).mp here with old | rfl
    · exact stored.firsts u old
    · rw [← made]
      exact ⟨_, sound.mem_addRef.mpr (.inr rfl), rfl, rfl, rfl, rfl⟩
  · intro u here v there same
    rcases (listed u).mp here with old | rfl
    · rcases (listed v).mp there with old' | rfl
      · exact sound.once u old v old' same
      · rw [← made] at same
        exact absurd same (Nat.ne_of_lt (sound.first_lt old))
    · rcases (listed v).mp there with old' | rfl
      · rw [← made] at same
        exact absurd same.symm (Nat.ne_of_lt (sound.first_lt old'))
      · rfl
  · exact stored.mirrors
  · intro m here id top
    obtain ⟨u, old, same⟩ := stored.tops m here id top
    exact ⟨u, (listed u).mpr (.inl old), same⟩
  · rintro m p ⟨here, there, reply⟩ root isRoot
    refine stored.threaded m p ⟨here, there, reply⟩ root ?_
    rcases threadRoot_eq_some_iff.mp isRoot with mirror | ⟨plain, top | ⟨none, first, same⟩⟩
    · exact threadRoot_eq_some_iff.mpr (.inl mirror)
    · exact threadRoot_eq_some_iff.mpr (.inr ⟨plain, .inl top⟩)
    · obtain ⟨u, ⟨here', channel, alive⟩, top⟩ := first
      rcases (listed u).mp here' with old | rfl
      · exact threadRoot_eq_some_iff.mpr
          (.inr ⟨plain, .inr ⟨none, ⟨u, ⟨old, channel, alive⟩, top⟩, same⟩⟩)
      · rw [← made] at top
        have replied : m.replyToId = some db.nextId := reply.trans (congrArg some top.symm)
        rcases sound.mem_addRef.mp here with old | rfl
        · exact absurd (sound.refers m old _ replied) (Nat.lt_irrefl _)
        · cases replied

theorem editTopics {which : ForumTopic → Bool} {change : ForumTopic → ForumTopic}
    {keeps : ∀ t, (change t).key = t.key} (closes : ∀ t, ∃ closed, change t = { t with closed }) :
    ({ db with topics := db.topics.modify which change keeps } : Db).Sound := by
  have row : ∀ t, t ∈ db.topics.modify which change keeps → ∃ old ∈ db.topics,
      (if which old then change old else old) = t := fun t here => Table.mem_modify.mp here
  have row' : ∀ old ∈ db.topics,
      (if which old then change old else old) ∈ db.topics.modify which change keeps :=
    fun old there => Table.mem_modify.mpr ⟨old, there, rfl⟩
  have closing : ∀ old, ∃ closed,
      (if which old then change old else old) = { old with closed } := by
    intro old
    split
    · exact closes old
    · exact ⟨old.closed, rfl⟩
  constructor
  · exact sound.fresh
  · exact sound.refers
  · intro t here
    obtain ⟨old, there, rfl⟩ := row t here
    obtain ⟨closed, same⟩ := closing old
    rw [same]
    exact sound.alive old there
  · intro t here
    obtain ⟨old, there, rfl⟩ := row t here
    obtain ⟨closed, same⟩ := closing old
    rw [same]
    exact sound.firsts old there
  · intro t here u there same
    obtain ⟨old, was, rfl⟩ := row t here
    obtain ⟨old', was', rfl⟩ := row u there
    obtain ⟨closed, shape⟩ := closing old
    obtain ⟨closed', shape'⟩ := closing old'
    rw [shape, shape'] at same
    obtain rfl := sound.once old was old' was' same
    rfl
  · exact sound.mirrors
  · intro m here id top
    obtain ⟨old, there, same⟩ := sound.tops m here id top
    obtain ⟨closed, shape⟩ := closing old
    exact ⟨_, row' old there, by rw [shape]; exact same⟩
  · rintro m p ⟨here, there, reply⟩ root isRoot
    refine sound.threaded m p ⟨here, there, reply⟩ root ?_
    rcases threadRoot_eq_some_iff.mp isRoot with mirror | ⟨plain, top | ⟨none, first, same⟩⟩
    · exact threadRoot_eq_some_iff.mpr (.inl mirror)
    · exact threadRoot_eq_some_iff.mpr (.inr ⟨plain, .inl top⟩)
    · obtain ⟨t, ⟨listed, channel, alive⟩, top⟩ := first
      obtain ⟨old, was, rfl⟩ := row t listed
      obtain ⟨closed, shape⟩ := closing old
      rw [shape] at channel alive top
      exact threadRoot_eq_some_iff.mpr
        (.inr ⟨plain, .inr ⟨none, ⟨old, ⟨was, channel, alive⟩, top⟩, same⟩⟩)

end Sound

theorem Sound.forwardForPeers {channelId : ChannelId} {userId : UserId}
    (replies : List (Option Nat)) (sound : db.Sound) {created : List RefId} (earlier : ∀ id ∈ created, id < db.nextId)
    (nowhere : ∀ p ∈ db.refs, p.id ∈ created → db.threadRoot p = none) :
    (Db.forwardForPeers channelId userId created replies db).Sound := by
  induction replies generalizing db created with
  | nil => exact sound
  | cons reply rest ih =>
    rw [Db.forwardForPeers]
    have listed : ∀ id, (reply.bind fun i => created[i]?) = some id → id ∈ created := by
      intro id found
      obtain ⟨i, -, at'⟩ := Option.bind_eq_some_iff.mp found
      exact List.mem_of_getElem? at'
    have stored : (db.addRef
        { id := 0, channelId, type := .regular, authorId := some userId
          replyToId := reply.bind fun i => created[i]?, isDiscussion := true }).Sound := by
      refine sound.addRef ?_ (fun _ => rfl) ?_ ?_
      · intro id found
        exact earlier id (listed id found)
      · intro id top
        cases top
      · intro p here found root isRoot
        rw [nowhere p here (listed p.id found)] at isRoot
        cases isRoot
    apply ih stored
    · intro id here
      rcases List.mem_append.mp here with old | new
      · exact Nat.lt_succ_of_lt (earlier id old)
      · exact Nat.lt_succ_of_le (Nat.le_of_eq (List.mem_singleton.mp new))
    · intro p here member
      rcases sound.mem_addRef.mp here with old | rfl
      · have early : p.id ∈ created := by
          rcases List.mem_append.mp member with early | new
          · exact early
          · exact absurd (List.mem_singleton.mp new) (Nat.ne_of_lt (sound.fresh p old))
        exact nowhere p old early
      · cases isRoot : Db.threadRoot _ _ with
        | none => rfl
        | some root =>
          rcases threadRoot_eq_some_iff.mp isRoot with
            ⟨mirror, -⟩ | ⟨-, top | ⟨-, ⟨t, isTopic, top⟩, -⟩⟩
          · cases mirror
          · cases top
          · exact absurd top (Nat.ne_of_lt (sound.first_lt isTopic.here))

namespace Sound

variable (sound : db.Sound)

include sound

section Placing

variable {channel : Channel} {r : Send} {named replied top : Option MessageRef}

theorem placed_iff_fits (here : db.channels.get r.channelId = some channel)
    (given : db.namedTopic channel r = .ok named)
    (answered : db.findReply channel r none = .ok replied)
    (put : db.orGeneral channel r named = .ok top) :
    db.Placed r.userId (db.drafted channel r replied top) ↔ db.Fits channel r replied := by
  obtain ⟨-, same⟩ := Table.get_eq_some_iff.mp here
  have here : db.channels.get channel.id = some channel := by
    rw [same]
    exact here
  have only : ∀ {t u : ForumTopic}, db.IsTopicOf channel.id t → db.IsTopicOf channel.id u →
      some t.topMessageId = some u.topMessageId → t = u :=
    fun first second eq => sound.once _ first.here _ second.here (Option.some.inj eq)
  have general : ∀ {t : ForumTopic}, db.GoesToGeneral channel r t → db.IsTopicOf channel.id t :=
    fun goes => getGeneralTopic_eq_some goes.2.2.2
  constructor
  · intro placed
    constructor
    · rintro p rfl root isRoot
      have at' : top.map MessageRef.id = some root :=
        placed.root p (mem_of_findReply answered) rfl root isRoot
      rcases top_cases given put with ⟨t, names, -, -, eq⟩ | ⟨t, goes, eq⟩ | ⟨-, -, none⟩
      · rw [names, ← eq]
        exact .inl at'
      · exact .inr ⟨t, goes, Option.some.inj (eq.symm.trans at')⟩
      · rw [none] at at'
        cases at'
    · intro forum names
      obtain ⟨u, ⟨isTopic, at'⟩, -⟩ := placed.topic channel here forum
      have at' : top.map MessageRef.id = some u.topMessageId := at'
      rcases top_cases given put with ⟨t, names', -⟩ | ⟨t, goes, eq⟩ | ⟨-, -, none⟩
      · rw [names] at names'
        cases names'
      · exact ⟨t, goes, placed.closed channel t here (general goes) eq⟩
      · rw [none] at at'
        cases at'
  · intro fits
    constructor
    · intro p there reply root isRoot
      have reply : replied.map MessageRef.id = some p.id := reply
      obtain ⟨q, rfl, eq⟩ := Option.map_eq_some_iff.mp reply
      obtain rfl := Table.eq_of_key_eq (mem_of_findReply answered) there eq
      show top.map MessageRef.id = some root
      have place := fits.answers q rfl root isRoot
      rcases top_cases given put with ⟨t, names, -, -, eq⟩ | ⟨t, goes, eq⟩ | ⟨names, nowhere, -⟩
      · rcases place with names' | ⟨u, goes, -⟩
        · exact eq.trans (names.symm.trans names')
        · rw [goes.1] at names
          cases names
      · rcases place with names | ⟨u, goes', rfl⟩
        · rw [goes.1] at names
          cases names
        · obtain rfl := Option.some.inj (goes.2.2.2.symm.trans goes'.2.2.2)
          exact eq
      · rcases place with names' | ⟨u, goes, -⟩
        · rw [names] at names'
          cases names'
        · exact absurd goes (nowhere u)
    · intro channel' found forum
      obtain rfl := Option.some.inj (here.symm.trans found)
      rcases top_cases given put with ⟨t, -, isTopic, -, eq⟩ | ⟨t, goes, eq⟩ | ⟨names, nowhere, -⟩
      · exact ⟨t, ⟨isTopic, eq⟩, fun u other => only other.1 isTopic (other.2.symm.trans eq)⟩
      · exact ⟨t, ⟨general goes, eq⟩, fun u other =>
          only other.1 (general goes) (other.2.symm.trans eq)⟩
      · obtain ⟨u, goes, -⟩ := fits.general forum names
        exact absurd goes (nowhere u)
    · intro channel' u found isTopic at' closed
      obtain rfl := Option.some.inj (here.symm.trans found)
      have at' : top.map MessageRef.id = some u.topMessageId := at'
      rcases top_cases given put with ⟨t, -, listed, may, eq⟩ | ⟨t, goes, eq⟩ | ⟨-, -, none⟩
      · obtain rfl := only listed isTopic (eq.symm.trans at')
        exact may closed
      · obtain ⟨v, goes', may⟩ := fits.general goes.2.1 goes.1
        obtain rfl := Option.some.inj (goes.2.2.2.symm.trans goes'.2.2.2)
        obtain rfl := only (general goes) isTopic (eq.symm.trans at')
        exact may closed
      · rw [none] at at'
        cases at'

theorem exists_orGeneral (channel : Channel) (r : Send) (named : Option MessageRef) :
    ∃ top, db.orGeneral channel r named = .ok top := by
  rw [orGeneral]
  split
  · cases found : db.getGeneralTopic channel.id with
    | none => exact ⟨none, rfl⟩
    | some general =>
      obtain ⟨first, here, same, -⟩ := sound.firsts general (getGeneralTopic_eq_some found).here
      have got : db.refs.get general.topMessageId = some first :=
        Table.get_eq_some_iff.mpr ⟨here, same⟩
      exact ⟨some first,
        congrArg (fun found => (orRaise found Failure.other).map some) got⟩
  · exact ⟨named, rfl⟩

theorem send_iff : KeepsThreads db (.send r) ↔ InThreads db (.send r) := by
  constructor
  · intro right channel named replied here passed given answered
    obtain ⟨top, put⟩ := sound.exists_orGeneral channel r named
    exact (sound.placed_iff_fits here given answered put).mp (right _ _
      (sendMessageInternal_eq_ok.mpr
        ⟨channel, named, replied, top, here, passed, given, answered, put, rfl, rfl⟩))
  · intro good after m sent
    obtain ⟨channel, named, replied, top, here, passed, given, answered, put, rfl, -⟩ :=
      sendMessageInternal_eq_ok.mp sent
    exact (sound.placed_iff_fits here given answered put).mpr
      (good channel named replied here passed given answered)

end Placing

section Steps

variable {after : Db} {channel : Channel} {userId : UserId} {messageId : RefId}

theorem createForumTopicRecord {titleLength : Nat} {topicId : Option Nat}
    (created : db.createForumTopicRecord channel userId titleLength topicId = .ok after) :
    after.Sound := by
  unfold Db.createForumTopicRecord at created
  rw [check_bind_eq_ok] at created
  cases topicId with
  | some given => exact sound.addTopic created.2
  | none =>
    have numbered : (db.setNextTopicId channel).Sound := sound.of_same rfl rfl rfl
    exact numbered.addTopic created.2

theorem ensureGeneralTopic : (db.ensureGeneralTopic channel userId).Sound := by
  rw [Db.ensureGeneralTopic]
  split
  · exact sound
  · split
    · rename_i created
      exact sound.createForumTopicRecord created
    · exact sound

theorem createChannel {r : CreateChannel} : (createChannel db userId r).Sound := by
  have stored : ∀ channel : Channel, ({ db with
      channels := db.channels.insert channel
      participants := db.participants.insert (creatorParticipant channel.id userId) } : Db).Sound :=
    fun _ => sound.of_same rfl rfl rfl
  unfold Forums.createChannel
  dsimp only
  split
  · exact (stored _).ensureGeneralTopic
  · exact stored _

theorem toggleForum {r : ToggleForum} (done : toggleForum db userId r = .ok after) :
    after.Sound := by
  obtain ⟨channel, -, done⟩ := (bind_eq_ok _).mp done
  obtain ⟨-, done⟩ := check_bind_eq_ok.mp done
  obtain ⟨-, done⟩ := check_bind_eq_ok.mp done
  have switched : ∀ forum, (db.setForum channel forum).Sound := fun _ => sound.of_same rfl rfl rfl
  split at done
  · exact Except.ok.inj done ▸ (switched true).ensureGeneralTopic
  · exact Except.ok.inj done ▸ switched false

theorem createForumTopic {r : CreateForumTopic} (done : createForumTopic db userId r = .ok after) :
    after.Sound := by
  obtain ⟨channel, -, done⟩ := (bind_eq_ok _).mp done
  obtain ⟨-, done⟩ := check_bind_eq_ok.mp done
  obtain ⟨-, done⟩ := check_bind_eq_ok.mp done
  exact sound.createForumTopicRecord done

theorem editForumTopic {r : EditForumTopic} (done : editForumTopic db userId r = .ok after) :
    after.Sound := by
  obtain ⟨channel, -, done⟩ := (bind_eq_ok _).mp done
  obtain ⟨-, done⟩ := check_bind_eq_ok.mp done
  obtain ⟨topic, found, done⟩ := orRaise_bind_eq_ok.mp done
  obtain ⟨-, done⟩ := check_bind_eq_ok.mp done
  obtain ⟨-, done⟩ := check_bind_eq_ok.mp done
  have listed : topic ∈ db.topics :=
    (Table.get_eq_some_iff.mp (Option.filter_eq_some_iff.mp found).1).1
  refine Except.ok.inj done ▸ Sound.addRef (sound.editTopics fun t => ⟨_, rfl⟩) ?_ ?_ ?_ ?_
  · intro id reply
    cases reply
  · intro mirror
    cases mirror
  · intro id top
    obtain rfl := Option.some.inj top
    have here : (if topic.key == topic.key then
        ({ topic with closed := r.closed.getD topic.closed } : ForumTopic) else topic) ∈
        db.topics.modify (fun t => t.key == topic.key)
          (fun t => { t with closed := r.closed.getD t.closed }) fun _ => rfl :=
      Table.mem_modify.mpr ⟨topic, listed, rfl⟩
    rw [if_pos (beq_self_eq_true _)] at here
    exact ⟨_, here, rfl⟩
  · intro p _ reply
    cases reply

theorem deleteTopicHistory {r : DeleteTopicHistory}
    (done : deleteTopicHistory db userId r = .ok after) : after.Sound := by
  obtain ⟨channel, -, done⟩ := (bind_eq_ok _).mp done
  obtain ⟨-, done⟩ := check_bind_eq_ok.mp done
  obtain ⟨_, -, done⟩ := orRaise_bind_eq_ok.mp done
  exact Except.ok.inj done ▸ sound.removeRefs _

theorem ensureDiscussionThread : (ensureDiscussionThread db messageId).Sound := by
  have mirrored : ∀ groupId, (db.addRef { id := 0, channelId := groupId, type := .regular
                                          authorId := none, isDiscussion := true }).Sound := by
    intro groupId
    refine sound.addRef ?_ (fun _ => rfl) ?_ ?_
    · intro id reply
      cases reply
    · intro id top
      cases top
    · intro p _ reply
      cases reply
  unfold Forums.ensureDiscussionThread
  split
  · exact sound
  · split
    · exact sound
    · split
      · exact sound
      · split
        · exact sound
        · exact (mirrored _).updateRefs fun _ => ⟨rfl, rfl, rfl, rfl, rfl⟩

theorem send {r : Send} (placed : db.Placed r.userId m)
    (sent : db.sendMessageInternal r = .ok (after, m)) : after.Sound := by
  obtain ⟨channel, named, replied, top, here, -, given, answered, put, rfl, rfl⟩ :=
    sendMessageInternal_eq_ok.mp sent
  refine Sound.updateRefs (sound.addRef ?_ ?_ ?_ placed.root) fun _ => ⟨rfl, rfl, rfl, rfl, rfl⟩
  · intro id reply
    obtain ⟨p, rfl, rfl⟩ := Option.map_eq_some_iff.mp reply
    exact sound.fresh p (mem_of_findReply answered)
  · intro mirror
    cases mirror
  · intro id at'
    have at' : top.map MessageRef.id = some id := at'
    rcases top_cases given put with ⟨t, -, isTopic, -, eq⟩ | ⟨t, goes, eq⟩ | ⟨-, -, none⟩
    · exact ⟨t, isTopic.here, Option.some.inj (eq.symm.trans at')⟩
    · exact ⟨t, (getGeneralTopic_eq_some goes.2.2.2).here, Option.some.inj (eq.symm.trans at')⟩
    · rw [none] at at'
      cases at'

theorem sendScheduled (placed : db.Placed 0 m)
    (sent : db.sendScheduled messageId = some (after, m)) : after.Sound := by
  obtain ⟨scheduled, here, -, -, rfl, rfl⟩ := sendScheduled_eq_some sent
  refine Sound.removeRefs (sound.addRef ?_ ?_ ?_ placed.root) _
  · exact sound.refers scheduled here
  · intro mirror
    rfl
  · intro id top
    cases top

theorem toTlReplies : (db.toTlReplies m).2.Sound := by
  rw [Db.toTlReplies]
  split
  · exact sound
  · split
    · exact sound
    · split
      · exact sound.of_same rfl rfl rfl
      · exact sound

/-- What is right is what is asked for. -/
theorem keepsThreads_iff (e : Event) : KeepsThreads db e ↔ InThreads db e := by
  cases e with
  | send r => exact sound.send_iff
  | sendScheduled messageId => exact sendScheduled_iff
  | _ => exact Iff.rfl

/-- The next event keeps the law when it does what is asked for. -/
theorem step {e : Event} (good : InThreads db e) (happens : Forums.step db e = some after) :
    after.Sound := by
  have lift : ∀ {result : Except Failure Db}, handle db e = result →
      (∀ after, result = .ok after → after.Sound) → after.Sound := by
    intro result handled kept
    rw [Forums.step, handled] at happens
    cases result with
    | error _ =>
      obtain rfl := Option.some.inj happens
      exact sound
    | ok out =>
      obtain rfl := Option.some.inj happens
      exact kept _ rfl
  cases e with
  | createChannel userId r => exact lift rfl fun _ done => Except.ok.inj done ▸ sound.createChannel
  | toggleForum userId r => exact lift rfl fun _ done => sound.toggleForum done
  | createForumTopic userId r => exact lift rfl fun _ done => sound.createForumTopic done
  | editForumTopic userId r => exact lift rfl fun _ done => sound.editForumTopic done
  | deleteTopicHistory userId r => exact lift rfl fun _ done => sound.deleteTopicHistory done
  | ensureDiscussionThread messageId =>
    exact lift rfl fun _ done => Except.ok.inj done ▸ sound.ensureDiscussionThread
  | send r =>
    refine lift rfl fun _ done => ?_
    obtain ⟨⟨after, m⟩, sent, rfl⟩ := map_eq_ok.mp done
    exact sound.send (sound.send_iff.mpr good after m sent) sent
  | sendScheduled messageId =>
    refine lift rfl fun _ done => Except.ok.inj done ▸ ?_
    cases sent : db.sendScheduled messageId with
    | none => exact sound
    | some both => exact sound.sendScheduled (sendScheduled_iff.mpr good 0 _ _ sent) sent
  | forward channelId userId replies =>
    refine lift rfl fun _ done => Except.ok.inj done ▸ ?_
    exact sound.forwardForPeers replies (fun _ none => by cases none) fun _ _ none => by cases none
  | deleteMessages ids posts =>
    refine lift rfl fun _ done => Except.ok.inj done ▸ ?_
    exact (sound.removeRefs ids).updateRefs fun _ => ⟨rfl, rfl, rfl, rfl, rfl⟩
  | toTlReplies messageId =>
    refine lift rfl fun _ done => Except.ok.inj done ▸ ?_
    cases db.refs.get messageId with
    | none => exact sound
    | some m => exact sound.toTlReplies
  | evict key =>
    refine lift rfl fun _ done => Except.ok.inj done ▸ ?_
    exact sound.of_same rfl rfl rfl
  | editChannel channelId change =>
    refine lift rfl fun _ done => Except.ok.inj done ▸ ?_
    exact sound.of_same rfl rfl rfl
  | editParticipants participants =>
    refine lift rfl fun _ done => Except.ok.inj done ▸ ?_
    exact sound.of_same rfl rfl rfl

end Steps

end Sound

end Db

/-! ### Runs -/

/-- A run keeps the threads exactly when each message is sent to the topic of the thread that it
replies to, to a mirror's thread never, and to the general topic by those who may write there. -/
theorem threads_kept_iff (es : List Event) :
    StepsMeet step KeepsThreads Db.initial es ∧ HoldsAlong step Db.Threaded Db.initial es ↔
      StepsMeet step InThreads Db.initial es := by
  have keep : ∀ db e after, db.Sound → InThreads db e → step db e = some after → after.Sound :=
    fun _ _ _ sound good happens => sound.step good happens
  have same : StepsMeet step KeepsThreads Db.initial es ↔ StepsMeet step InThreads Db.initial es :=
    stepsMeet_iff (fun _ e sound => sound.keepsThreads_iff e) keep Db.Sound.initial es
  constructor
  · rintro ⟨right, -⟩
    exact same.mp right
  · intro good
    exact ⟨same.mpr good,
      holdsAlong_of_stepsMeet (fun _ sound => sound.toThreaded) keep Db.Sound.initial good⟩

/-- A message of user 7 to a group, in reply to another one. -/
private def comment (replyTo : RefId) : Send where
  userId := 7
  bot := false
  channelId := 2
  authorId := 7
  replyToMessageId := some replyTo
  topMsgId := none
  replyTo := none
  opposite := true
  scheduled := false
  type := .regular
  spamCheck := .ok ()

/-- A channel with a discussion group, and a post that has its mirror there, which is message 2. -/
private def mirrored : List Event :=
  [.createChannel 5 ⟨true, false, false⟩, .createChannel 5 ⟨false, true, false⟩,
    .editChannel 1 fun c => { c with discussionId := some 2 },
    .editChannel 2 fun c => { c with isDiscussion := true },
    .send { comment 0 with userId := 5, authorId := 5, channelId := 1 }, .ensureDiscussionThread 1]

/-- A row of the group. -/
private def stored (id : RefId) (authorId : Option UserId) (replyToId : Option RefId) :
    MessageRef where
  id := id
  channelId := 2
  type := .regular
  authorId := authorId
  replyToId := replyToId

private def mirror : MessageRef := { stored 2 none none with isDiscussion := true }

private def discussed : Db := (runFrom step Db.initial mirrored).getD Db.initial

private def commented : Db :=
  (runFrom step discussed [.send (comment 2), .send (comment 3)]).getD Db.initial

/-- A comment on a post, and a comment on the comment, which is not counted. -/
theorem comments_lost :
    ¬ StepsMeet step KeepsThreads Db.initial (mirrored ++ [.send (comment 2), .send (comment 3)]) ∧
    ¬ HoldsAlong step Db.Threaded Db.initial
      (mirrored ++ [.send (comment 2), .send (comment 3)]) := by
  have posted : runFrom step Db.initial mirrored = some discussed := rfl
  constructor
  · intro right
    rw [stepsMeet_append posted] at right
    obtain ⟨-, right, -⟩ := right
    have placed : discussed.Placed 7 (stored 3 (some 7) (some 2)) := right _ _ rfl
    have here := Table.get_eq_some_iff.mp (show discussed.refs.get 2 = some mirror from rfl)
    have top : none = some 2 := placed.root mirror here.1 rfl 2 rfl
    cases top
  · intro along
    have threaded : commented.Threaded := along _ _ (List.prefix_refl _) rfl
    have here : ∀ m, commented.refs.get m.id = some m → m ∈ commented.refs :=
      fun m found => Table.mem_iff_get.mpr found
    have first : commented.Answers (stored 3 (some 7) (some 2)) mirror :=
      ⟨here _ rfl, here _ rfl, rfl⟩
    have second : commented.Answers (stored 4 (some 7) (some 3)) (stored 3 (some 7) (some 2)) :=
      ⟨here _ rfl, here _ rfl, rfl⟩
    have counted := threaded.counted _ _
      ⟨.inl rfl, Relation.TransGen.head second (Relation.TransGen.single first)⟩
    exact absurd counted (by decide)

end Piltover.Forums
