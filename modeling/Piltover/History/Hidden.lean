/- source: piltover/db/models/channel.py, piltover/db/models/message_ref.py,
     piltover/app/handlers/messages/sending.py, piltover/app/handlers/messages/reactions.py,
     piltover/app/utils/forum_topics.py
   digest: Hidden history of a channel: the bound, the queries, the replies and the reactions. -/

import Piltover.Channels.Discussion
import Piltover.History.Queries

set_option autoImplicit false

namespace Piltover.History

open Piltover.Foundation

/-- A number that is 0 counts as none. -/
def truthy (n : Nat) : Option Nat := if n = 0 then none else some n

/-- What a query is extended with: a peer, or the channel itself. -/
inductive PeerOrChannel
  | peer (p : Peer)
  | channel (c : Channel)

def PeerOrChannel.participantUserId (given : PeerOrChannel) (user : Option Nat) : Option Nat :=
  match given with
  | .channel _ => user
  | .peer p =>
    match p.type with
    | .channel _ => p.ownerId.or user
    | _ => user

namespace Channel

variable (self : Channel)

/-- The part of the bound that holds for everybody. -/
def commonMin : Nat :=
  max (self.minAvailableIdForce.getD 0)
    (if self.hiddenPrehistory then self.minAvailableId.getD 0 else 0)

/-- `Channel.min_id`. -/
def minId (participant : Option ChatParticipant) : Option Nat :=
  match participant with
  | some p => truthy (max self.commonMin (p.minMessageId.getD 0))
  | none => truthy self.commonMin

end Channel

namespace Setting

variable (s : Setting)

def getParticipant (channel : Channel) (userId : Nat) : Option ChatParticipant :=
  (s.participants.get (userId, channel.id)).filter fun p => !p.left

def channelOf : PeerOrChannel → Option Channel
  | .channel c => some c
  | .peer p =>
    match p.type with
    | .channel channelId => s.channels.get channelId
    | _ => none

def appendChannelMinMessageIdToQueryMaybe (given : PeerOrChannel)
    (participant : Option ChatParticipant) (user : Option Nat) (r : MessageRef) : Bool :=
  match s.channelOf given with
  | none => true
  | some channel =>
    r.isFrom channel.minAvailableIdForce &&
      (!channel.hiddenPrehistory || r.isFrom channel.minAvailableId) &&
      (match participant.bind ChatParticipant.minMessageId, given.participantUserId user with
        | some minId, _ => decide (minId ≤ r.id)
        | none, some userId =>
          r.isFrom ((s.getParticipant channel userId).bind ChatParticipant.minMessageId)
        | none, none => true) &&
      (!channel.channel || (given.participantUserId user).all fun userId =>
        r.content.type != .service 7 || r.content.authorId == userId)

/-- The reply that is left where hidden messages are dropped. -/
def visibleReply (opposite : Bool) (channel : Channel) (userId replyToMessageId : Nat) :
    Option Nat :=
  if opposite && replyToMessageId != 0 then
    match channel.minId (s.getParticipant channel userId) with
    | some channelMinId => if channelMinId ≥ replyToMessageId then none else some replyToMessageId
    | none => some replyToMessageId
  else some replyToMessageId

end Setting

structure ForumTopic where
  channelId : Nat
  topMessageId : Nat
  closed : Bool
  deleted : Bool

def manageTopicsRight : Nat := 1 <<< 13

namespace Db

variable (db : Db) (userId : Nat) (peer : Peer) (channel : Channel)

def refOf (id : Nat) : Option MessageRef := (db.refs.get id).filter fun r => r.peerId == peer.id

def resolveTopicTopMessage (topics : List ForumTopic) (topMsgId : Nat) :
    Except Failure MessageRef := do
  let topic ← orRaise (topics.find? fun t =>
    t.channelId == channel.id && t.topMessageId == topMsgId && !t.deleted)
    (.rpc 400 "TOPIC_ID_INVALID")
  require (!topic.closed || (db.getParticipant channel userId).any fun p =>
    Channels.adminHasPermission channel.toChannel p.toChatParticipant manageTopicsRight)
    (.rpc 400 "TOPIC_CLOSED")
  orRaise (db.refOf peer topMsgId) (.rpc 400 "TOPIC_ID_INVALID")

/-- The topics, where the channel is a forum, and what the request names. -/
structure InForum where
  topics : Option (List ForumTopic)
  topMsgId : Option Nat

def InForum.topic (forum : InForum) : Option Nat :=
  if forum.topics.isSome then forum.topMsgId.bind truthy else none

/-- What `send_message_internal` resolves of the topic. -/
def resolves (forum : InForum) : Except Failure Unit :=
  match forum.topic with
  | none => .ok ()
  | some topMsgId =>
    (db.resolveTopicTopMessage userId peer channel (forum.topics.getD []) topMsgId).map fun _ => ()

def getReply (replyToMessageId : Option Nat) : Except Failure (Option MessageRef) :=
  match replyToMessageId.bind truthy with
  | none => .ok none
  | some id => (orRaise (db.refOf peer id) (.rpc 400 "REPLY_TO_INVALID")).map some

/-- The reply that `send_message_internal` keeps. -/
def keptReply (opposite : Bool) (forum : InForum) (replyToMessageId : Nat) :
    Except Failure (Option MessageRef) := do
  let visible := db.visibleReply opposite channel userId replyToMessageId
  db.resolves userId peer channel forum
  db.getReply peer (visible.or forum.topic)

end Db

/-- `MessageRef.get_`, for regular messages. -/
def Db.getRef (db : Db) (id : Nat) (peer : Peer) (userId : Nat) : Option MessageRef :=
  (db.refs.get id).filter fun r => r.peerId == peer.id && r.content.type == .regular &&
    db.appendChannelMinMessageIdToQueryMaybe (.peer peer) none (some userId) r

/-- What `send_reaction` does up to the message, for a channel peer. -/
def Db.reactionTarget (db : Db) (userId : Nat) (peer : Peer) (channel : Channel) (msgId : Nat) :
    Except Failure MessageRef := do
  let participant ← orRaise (db.getParticipant channel userId) (.rpc 400 "CHAT_RESTRICTED")
  require (Channels.ChatOrChannel.canViewMessages (.channel channel.toChannel)
    (some participant.toChatParticipant)) (.rpc 403 "CHAT_WRITE_FORBIDDEN")
  require ((channel.minId (some participant)).all fun channelMinId => !decide (msgId < channelMinId))
    (.rpc 400 "MESSAGE_ID_INVALID")
  orRaise (db.getRef msgId peer userId) (.rpc 400 "MESSAGE_ID_INVALID")

section Bounds

variable {s : Setting} {channel : Channel} {r : MessageRef}

theorem getD_truthy (n : Nat) : (truthy n).getD 0 = n := by
  unfold truthy
  split
  · rename_i zero
    rw [zero, Option.getD_none]
  · rw [Option.getD_some]

theorem getD_minId (channel : Channel) (participant : Option ChatParticipant) :
    (channel.minId participant).getD 0 =
      max channel.commonMin ((participant.bind ChatParticipant.minMessageId).getD 0) := by
  cases participant with
  | none => rw [Channel.minId, getD_truthy, Option.bind_none, Option.getD_none, Nat.max_zero]
  | some p => rw [Channel.minId, getD_truthy, Option.bind_some]

theorem isFrom_iff {minId : Option Nat} : r.isFrom minId = true ↔ minId.getD 0 ≤ r.id := by
  cases minId with
  | none => exact ⟨fun _ => Nat.zero_le _, fun _ => rfl⟩
  | some id =>
    rw [MessageRef.isFrom, Option.all_some, Option.getD_some, Bool.or_eq_true, beq_iff_eq,
      decide_eq_true_iff]
    omega

theorem commonMin_le_iff : (r.isFrom channel.minAvailableIdForce &&
    (!channel.hiddenPrehistory || r.isFrom channel.minAvailableId)) = true ↔
      channel.commonMin ≤ r.id := by
  rw [Bool.and_eq_true, Bool.or_eq_true, isFrom_iff, isFrom_iff, Channel.commonMin]
  cases channel.hiddenPrehistory with
  | true => simp only [Bool.not_true, Bool.false_eq_true, false_or, if_true, Nat.max_le]
  | false =>
    simp only [Bool.not_false, true_or, and_true, Bool.false_eq_true, if_false, Nat.max_zero]

def Plain (channel : Channel) (r : MessageRef) : Prop :=
  channel.channel = true → r.content.type ≠ .service 7

end Bounds

section Agreement

variable (db : Db) (userId : Nat) (peer : Peer) (channel : Channel) (given : PeerOrChannel)
  (participant : Option ChatParticipant) (user : Option Nat) (forum : Db.InForum)
  (r : MessageRef)

/-- A message of the channel, and a query that is extended for the user: with the row of the user
passed, or with the user to look it up for. -/
structure Asks : Prop where
  positive : 0 < r.id
  stored : r ∈ db.refs
  inPeer : r.peerId = peer.id
  ofChannel : peer.type = .channel channel.id
  found : db.channels.get channel.id = some channel
  owned : peer.ownerId = none ∨ peer.ownerId = some userId
  subject : given = .peer peer ∨ given = .channel channel
  named : user = none ∨ user = some userId
  row : ∀ p, participant = some p → db.participants.get (userId, channel.id) = some p
  known : given.participantUserId user = none → participant = none →
    db.getParticipant channel userId = none

def boundOf : Nat := (channel.minId (db.getParticipant channel userId)).getD 0

/-- The query, the reply and the reaction go by the same bound. -/
structure SameBound : Prop where
  query : Plain channel r →
    (db.appendChannelMinMessageIdToQueryMaybe given participant user r = true ↔
      boundOf db userId channel ≤ r.id)
  reply : db.keptReply userId peer channel true forum r.id = .ok (some r) ↔
    boundOf db userId channel ≤ r.id
  reaction : db.reactionTarget userId peer channel r.id = .ok r ↔ boundOf db userId channel ≤ r.id

/-- A message that is not hidden is not the first such one, unless it is the topic that is named;
the topic is one that is resolved; no row of a user who has left is passed that hides more; and the
message is a regular one and the user present. A hidden message is not the topic. -/
structure Apart : Prop where
  boundary : channel.minId (db.getParticipant channel userId) = some r.id →
    forum.topic = some r.id
  resolved : boundOf db userId channel ≤ r.id → db.resolves userId peer channel forum = .ok ()
  topic : forum.topic = some r.id → db.resolves userId peer channel forum = .ok () →
    boundOf db userId channel ≤ r.id
  present : Plain channel r → ∀ p minId, participant = some p → p.left = true →
    p.minMessageId = some minId → boundOf db userId channel ≤ r.id → minId ≤ r.id
  reacts : boundOf db userId channel ≤ r.id → r.content.type = .regular ∧
    ∃ present, db.getParticipant channel userId = some present ∧
      Channels.ChatOrChannel.canViewMessages (.channel channel.toChannel)
        (some present.toChatParticipant) = true

end Agreement

section Proofs

variable {db : Db} {userId : Nat} {peer : Peer} {channel : Channel} {given : PeerOrChannel}
  {participant : Option ChatParticipant} {user : Option Nat} {forum : Db.InForum}
  {r : MessageRef}

theorem boundOf_le_iff : boundOf db userId channel ≤ r.id ↔ channel.commonMin ≤ r.id ∧
    ((db.getParticipant channel userId).bind ChatParticipant.minMessageId).getD 0 ≤ r.id := by
  rw [boundOf, getD_minId, Nat.max_le]

theorem visibleReply_eq (positive : 0 < r.id) :
    db.visibleReply true channel userId r.id =
      if boundOf db userId channel ≤ r.id ∧
        channel.minId (db.getParticipant channel userId) ≠ some r.id then some r.id else none := by
  have asked : (true && r.id != 0) = true := by
    rw [Bool.true_and, bne_iff_ne]
    omega
  rw [Setting.visibleReply, if_pos asked, boundOf]
  cases channel.minId (db.getParticipant channel userId) with
  | none => exact (if_pos ⟨Nat.zero_le _, fun none => by cases none⟩).symm
  | some bound =>
    simp only [Option.getD_some, ne_eq, Option.some.injEq, ge_iff_le]
    split
    · rename_i hidden
      rw [if_neg (by omega)]
    · rename_i shown
      rw [if_pos (by omega)]

theorem refOf_eq_some {id : Nat} {found : MessageRef} (is : db.refOf peer id = some found) :
    found.id = id := by
  obtain ⟨found, _⟩ := Option.filter_eq_some_iff.mp is
  exact (Table.get_eq_some_iff.mp found).2

theorem getReply_eq (asks : Asks db userId peer channel given participant user r)
    {named : Option Nat} : db.getReply peer named = .ok (some r) ↔ named = some r.id := by
  have stored : db.refOf peer r.id = some r := by
    rw [Db.refOf, Table.mem_iff_get.mp asks.stored, Option.filter_some,
      if_pos (beq_iff_eq.mpr asks.inPeer)]
  have here : truthy r.id = some r.id := if_neg (Nat.ne_of_gt asks.positive)
  rw [Db.getReply]
  constructor
  · intro kept
    cases found : named.bind truthy with
    | none =>
      rw [found] at kept
      cases kept
    | some id =>
      rw [found] at kept
      obtain ⟨ref, is, same⟩ := map_eq_ok.mp kept
      rw [orRaise_eq_ok] at is
      obtain ⟨n, rfl, nonzero⟩ := Option.bind_eq_some_iff.mp found
      cases same
      rw [refOf_eq_some is]
      rw [truthy] at nonzero
      split at nonzero <;> cases nonzero
      rfl
  · rintro rfl
    rw [Option.bind_some, here]
    dsimp only
    rw [stored]
    rfl

theorem reply_iff (asks : Asks db userId peer channel given participant user r) :
    db.keptReply userId peer channel true forum r.id = .ok (some r) ↔
      db.resolves userId peer channel forum = .ok () ∧
        (forum.topic = some r.id ∨ (boundOf db userId channel ≤ r.id ∧
          channel.minId (db.getParticipant channel userId) ≠ some r.id)) := by
  rw [Db.keptReply, check_bind_eq_ok, getReply_eq asks, visibleReply_eq asks.positive]
  refine and_congr_right fun _ => ?_
  split
  case isTrue visible => exact iff_of_true rfl (.inr visible)
  case isFalse hidden => rw [Option.none_or, or_iff_left hidden]

theorem channelOf_eq (asks : Asks db userId peer channel given participant user r) :
    db.channelOf given = some channel := by
  rcases asks.subject with rfl | rfl
  · rw [Setting.channelOf, asks.ofChannel]
    exact asks.found
  · rfl

theorem participantUserId_eq (asks : Asks db userId peer channel given participant user r) :
    given.participantUserId user = none ∨ given.participantUserId user = some userId := by
  rcases asks.subject with rfl | rfl
  · rw [PeerOrChannel.participantUserId, asks.ofChannel]
    rcases asks.owned with none | owner
    · rw [none]
      exact asks.named
    · rw [owner]
      exact .inr rfl
  · exact asks.named

theorem getParticipant_of_row {p : ChatParticipant}
    (row : db.participants.get (userId, channel.id) = some p) :
    db.getParticipant channel userId = if p.left then none else some p := by
  rw [Setting.getParticipant, row]
  cases left : p.left <;> simp only [Option.filter, left, Bool.not_true, Bool.not_false,
    Bool.false_eq_true, if_true, if_false]

theorem personal_iff (asks : Asks db userId peer channel given participant user r) :
    (match participant.bind ChatParticipant.minMessageId, given.participantUserId user with
      | some minId, _ => decide (minId ≤ r.id)
      | none, some userId =>
        r.isFrom ((db.getParticipant channel userId).bind ChatParticipant.minMessageId)
      | none, none => true) = true ↔
      ((db.getParticipant channel userId).bind ChatParticipant.minMessageId).getD 0 ≤ r.id ∧
        ∀ p minId, participant = some p → p.left = true → p.minMessageId = some minId →
          minId ≤ r.id := by
  cases passed : participant.bind ChatParticipant.minMessageId with
  | some minId =>
    obtain ⟨p, rfl, min⟩ := Option.bind_eq_some_iff.mp passed
    rw [getParticipant_of_row (asks.row p rfl)]
    simp only [decide_eq_true_iff]
    cases left : p.left with
    | true =>
      refine ⟨fun from_ => ⟨Nat.zero_le _, ?_⟩, fun both => both.2 p minId rfl left min⟩
      intro q k same _ min'
      cases same
      rw [min] at min'
      rwa [← Option.some.inj min']
    | false =>
      simp only [Bool.false_eq_true, if_false, Option.bind_some, min, Option.getD_some]
      refine ⟨fun from_ => ⟨from_, ?_⟩, And.left⟩
      intro q k same gone
      cases same
      rw [left] at gone
      cases gone
  | none =>
    have nothing : ∀ p minId, participant = some p → p.left = true →
        p.minMessageId = some minId → minId ≤ r.id := by
      intro p minId same _ min
      rw [same, Option.bind_some, min] at passed
      cases passed
    rw [and_iff_left nothing]
    rcases participantUserId_eq asks with unnamed | named
    · rw [unnamed]
      refine ⟨fun _ => ?_, fun _ => rfl⟩
      cases participant with
      | none =>
        rw [asks.known unnamed rfl]
        exact Nat.zero_le _
      | some p =>
        rw [Option.bind_some] at passed
        rw [getParticipant_of_row (asks.row p rfl)]
        split
        · exact Nat.zero_le _
        · rw [Option.bind_some, passed]
          exact Nat.zero_le _
    · rw [named]
      exact isFrom_iff

theorem query_iff (asks : Asks db userId peer channel given participant user r)
    (plain : Plain channel r) :
    db.appendChannelMinMessageIdToQueryMaybe given participant user r = true ↔
      boundOf db userId channel ≤ r.id ∧ ∀ p minId, participant = some p → p.left = true →
        p.minMessageId = some minId → minId ≤ r.id := by
  have joins : (!channel.channel || (given.participantUserId user).all fun userId =>
      r.content.type != .service 7 || r.content.authorId == userId) = true := by
    cases broadcast : channel.channel with
    | false => rfl
    | true =>
      have other : (r.content.type != .service 7) = true := bne_iff_ne.mpr (plain broadcast)
      simp only [other, Bool.true_or, Bool.not_true, Bool.false_or, Option.all_eq_true,
        implies_true]
  unfold Setting.appendChannelMinMessageIdToQueryMaybe
  rw [channelOf_eq asks]
  dsimp only
  rw [joins, Bool.and_true, Bool.and_eq_true, commonMin_le_iff, personal_iff asks, boundOf_le_iff,
    and_assoc]

theorem reaction_iff (asks : Asks db userId peer channel given participant user r) :
    db.reactionTarget userId peer channel r.id = .ok r ↔ boundOf db userId channel ≤ r.id ∧
      r.content.type = .regular ∧ ∃ present, db.getParticipant channel userId = some present ∧
        Channels.ChatOrChannel.canViewMessages (.channel channel.toChannel)
          (some present.toChatParticipant) = true := by
  have looked : Asks db userId peer channel (.peer peer) none (some userId) r :=
    { asks with
      subject := .inl rfl
      named := .inr rfl
      row := fun _ none => by cases none
      known := fun unnamed => by
        rw [PeerOrChannel.participantUserId, asks.ofChannel] at unnamed
        rcases asks.owned with none | owner
        · rw [none] at unnamed
          cases unnamed
        · rw [owner] at unnamed
          cases unnamed }
  have shown {present : ChatParticipant} (here : db.getParticipant channel userId = some present) :
      (channel.minId (some present)).all (fun bound => !decide (r.id < bound)) = true ↔
        boundOf db userId channel ≤ r.id := by
    rw [boundOf, here]
    cases channel.minId (some present) with
    | none => exact ⟨fun _ => Nat.zero_le _, fun _ => rfl⟩
    | some bound =>
      rw [Option.all_some, Bool.not_eq_true', decide_eq_false_iff_not, Option.getD_some,
        Nat.not_lt]
  have stored : db.refs.get r.id = some r := Table.mem_iff_get.mp asks.stored
  have plain (regular : r.content.type = .regular) : Plain channel r := fun _ service => by
    rw [regular] at service
    cases service
  have fetched (regular : r.content.type = .regular) :
      db.getRef r.id peer userId = some r ↔ boundOf db userId channel ≤ r.id := by
    rw [Db.getRef, stored, Option.filter_eq_some_iff, Bool.and_eq_true, Bool.and_eq_true,
      beq_iff_eq, beq_iff_eq, query_iff looked (plain regular)]
    refine ⟨fun both => both.2.2.1, fun bound => ⟨rfl, ⟨asks.inPeer, regular⟩, bound, ?_⟩⟩
    exact fun _ _ none => by cases none
  rw [Db.reactionTarget]
  simp only [orRaise_bind_eq_ok, check_bind_eq_ok, require_eq_ok, orRaise_eq_ok]
  constructor
  · rintro ⟨present, here, views, _, found⟩
    have regular : r.content.type = .regular := by
      have kept := (Option.filter_eq_some_iff.mp found).2
      rw [Bool.and_eq_true, Bool.and_eq_true, beq_iff_eq, beq_iff_eq] at kept
      exact kept.1.2
    exact ⟨(fetched regular).mp found, regular, present, here, views⟩
  · rintro ⟨bound, regular, present, here, views⟩
    exact ⟨present, here, views, (shown here).mpr bound, (fetched regular).mpr bound⟩

/-- Queries, replies and reactions go by the same bound exactly when the message is not the first
that is not hidden, the topic that is named is resolved and not hidden, no row that hides more is
passed for a user who has left, and a message that is not hidden takes reactions of the user. -/
theorem sameBound_iff (asks : Asks db userId peer channel given participant user r) :
    SameBound db userId peer channel given participant user forum r ↔
      Apart db userId peer channel participant forum r := by
  constructor
  · intro same
    refine ⟨fun boundary => ?_, fun bound => ?_, fun topic resolved => ?_, ?_, fun bound => ?_⟩
    · have bound : boundOf db userId channel ≤ r.id := by
        rw [boundOf, boundary]
        exact Nat.le_refl _
      exact ((reply_iff asks).mp (same.reply.mpr bound)).2.resolve_right fun both =>
        both.2 boundary
    · exact ((reply_iff asks).mp (same.reply.mpr bound)).1
    · exact same.reply.mp ((reply_iff asks).mpr ⟨resolved, .inl topic⟩)
    · intro plain p minId passed left min bound
      exact ((query_iff asks plain).mp ((same.query plain).mpr bound)).2 p minId passed left min
    · exact ((reaction_iff asks).mp (same.reaction.mpr bound)).2
  · intro apart
    refine ⟨fun plain => ?_, ?_, ?_⟩
    · rw [query_iff asks plain, and_iff_left_iff_imp]
      exact fun bound p minId passed left min => apart.present plain p minId passed left min bound
    · rw [reply_iff asks]
      constructor
      · rintro ⟨resolved, topic | ⟨bound, _⟩⟩
        · exact apart.topic topic resolved
        · exact bound
      · intro bound
        refine ⟨apart.resolved bound, ?_⟩
        by_cases boundary : channel.minId (db.getParticipant channel userId) = some r.id
        · exact .inl (apart.boundary boundary)
        · exact .inr ⟨bound, boundary⟩
    · rw [reaction_iff asks, and_iff_left_iff_imp]
      exact apart.reacts

end Proofs

/-- A supergroup whose messages before 5 are cleared. -/
private def clearedGroup : Channel where
  creatorId := 1
  bannedRights := 0
  id := 51
  channel := false
  supergroup := true
  nojoinAllowView := false
  hiddenPrehistory := false
  joinToSend := false
  discussionId := none
  isDiscussion := false
  slowmodeSeconds := none
  deleted := false
  version := 4
  minAvailableId := none
  minAvailableIdForce := some 5

private def clearedMember : ChatParticipant := ⟨⟨2, 0, 0, false⟩, 51, none⟩

private def clearedPeer : Peer := ⟨61, none, .channel 51, none, none, 0⟩

private def clearedRef (id : Nat) : MessageRef :=
  ⟨id, 61, ⟨id, .regular, 1, [], 0, none, false, none⟩, false, none, none⟩

private def clearedDb : Db where
  peers := Table.insert Table.empty clearedPeer
  channels := Table.insert Table.empty clearedGroup
  participants := Table.insert Table.empty clearedMember
  mentions := []
  readStates := []
  dialogs := []
  refs := Table.insert (Table.insert Table.empty (clearedRef 5)) (clearedRef 6)

private theorem asks_cleared {id : Nat} (listed : id = 5 ∨ id = 6) :
    Asks clearedDb 2 clearedPeer clearedGroup (.peer clearedPeer) none (some 2) (clearedRef id) where
  positive := by rcases listed with rfl | rfl <;> decide
  stored := by rcases listed with rfl | rfl <;> exact Table.mem_iff_get.mpr rfl
  inPeer := rfl
  ofChannel := rfl
  found := rfl
  owned := .inl rfl
  subject := .inl rfl
  named := .inr rfl
  row := fun _ none => by cases none
  known := fun unnamed => by cases unnamed

/-- Behind the first message that is left, all go by the bound. -/
theorem sameBound_behind :
    SameBound clearedDb 2 clearedPeer clearedGroup (.peer clearedPeer) none (some 2) ⟨none, none⟩
      (clearedRef 6) :=
  (sameBound_iff (asks_cleared (.inr rfl))).mpr
    ⟨fun first => absurd first (by decide), fun _ => rfl, fun topic => (by cases topic),
      fun _ _ _ none => (by cases none), fun _ => ⟨rfl, clearedMember, rfl, by decide⟩⟩

/-- The first message that is left is shown and takes reactions, but no replies. -/
theorem boundary_not_replied :
    ¬ ∀ (db : Db) (userId : Nat) (peer : Peer) (channel : Channel) (given : PeerOrChannel)
      (participant : Option ChatParticipant) (user : Option Nat) (forum : Db.InForum)
      (r : MessageRef), Asks db userId peer channel given participant user r →
        SameBound db userId peer channel given participant user forum r := by
  intro same
  have reply := (same _ _ _ _ _ _ _ ⟨none, none⟩ _ (asks_cleared (.inl rfl))).reply
  have kept := ((reply_iff (asks_cleared (.inl rfl))).mp (reply.mpr (by decide))).2
  rcases kept with topic | ⟨_, behind⟩
  · cases topic
  · exact behind (by decide)

end Piltover.History
