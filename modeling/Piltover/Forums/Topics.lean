/- source: piltover/app/handlers/messages/sending.py, piltover/app/utils/forum_topics.py,
     piltover/app/handlers/forum_topics.py, piltover/app/utils/discussion_threads.py,
     piltover/app/handlers/internal.py, piltover/db/models/message_ref.py
   digest: Threads of a channel: topics, discussion mirrors, and where a sent message is put. -/

import Piltover.Channels.Discussion
import Piltover.History.Hidden

set_option autoImplicit false

namespace Piltover.Forums

open Piltover.Foundation
open History (truthy MessageType)

abbrev UserId := Nat
abbrev ChannelId := Nat
abbrev RefId := Nat

def deleteMessagesRight : Nat := 1 <<< 3
def manageTopicsRight : Nat := 1 <<< 13

def serviceTopicCreate : MessageType := .service 15
def serviceTopicEdit : MessageType := .service 16

structure Channel extends toHistory : History.Channel where
  forum : Bool
  nextTopicId : Nat
  deriving DecidableEq, Repr

/-- A row of `MessageRef` in the peer of a channel, joined with its content. -/
structure MessageRef where
  id : RefId
  channelId : ChannelId
  type : MessageType
  /-- The author of the content; only the mirror of a post has none. -/
  authorId : Option UserId
  replyToId : Option RefId := none
  topMessageId : Option RefId := none
  discussionId : Option RefId := none
  discussionTopMessageId : Option RefId := none
  isDiscussion : Bool := false
  fromScheduled : Bool := false
  repliesVersion : Nat := 0
  deriving DecidableEq, Repr

structure ForumTopic where
  topicId : Nat
  channelId : ChannelId
  topMessageId : RefId
  closed : Bool := false
  deleted : Bool := false
  deriving DecidableEq, Repr

/-- The columns that are unique together. -/
def ForumTopic.key (t : ForumTopic) : ChannelId × Nat := (t.channelId, t.topicId)

structure MessageReplies where
  replies : Nat
  comments : Bool := false
  channelId : Option ChannelId := none
  maxId : Option RefId
  deriving DecidableEq, Repr

/-- The tables, and the cached replies by message and version. -/
structure Db where
  channels : Table fun channel : Channel => channel.id
  participants : Table History.ChatParticipant.key
  refs : Table MessageRef.id
  topics : Table ForumTopic.key
  nextId : RefId
  cache : RefId × Nat → Option MessageReplies

namespace Db

def initial : Db := ⟨Table.empty, Table.empty, Table.empty, Table.empty, 1, fun _ => none⟩

variable (db : Db)

def getParticipant (channel : Channel) (userId : UserId) : Option History.ChatParticipant :=
  (db.participants.get (userId, channel.id)).filter fun p => !p.left

def adminHasPermission (channel : Channel) (p : History.ChatParticipant) (right : Nat) : Bool :=
  Channels.adminHasPermission channel.toChannel p.toChatParticipant right

def managesTopics (channel : Channel) (userId : UserId) : Bool :=
  (db.getParticipant channel userId).any fun p => adminHasPermission channel p manageTopicsRight

def findRef (channelId : ChannelId) (id : RefId) : Option MessageRef :=
  (db.refs.get id).filter fun m => m.channelId == channelId

def updateChannel (id : ChannelId) (change : Channel → Channel)
    (keeps : ∀ c, (change c).id = c.id) : Db :=
  { db with channels := db.channels.modify (fun c => c.id == id) change keeps }

def updateRefs (which : MessageRef → Bool) (change : MessageRef → MessageRef)
    (keeps : ∀ m, (change m).id = m.id) : Db :=
  { db with refs := db.refs.modify which change keeps }

def addRef (m : MessageRef) : Db :=
  { db with refs := db.refs.insert { m with id := db.nextId }, nextId := db.nextId + 1 }

end Db

def setNull (ids : List RefId) (column : Option RefId) : Option RefId :=
  column.filter fun id => !ids.contains id

def MessageRef.forget (ids : List RefId) (m : MessageRef) : MessageRef :=
  { m with
    replyToId := setNull ids m.replyToId
    topMessageId := setNull ids m.topMessageId
    discussionId := setNull ids m.discussionId }

def Db.removeRefs (db : Db) (ids : List RefId) : Db :=
  { db with
    refs := (db.refs.remove fun m => ids.contains m.id).modify (fun _ => true)
      (MessageRef.forget ids) fun _ => rfl
    topics := db.topics.remove fun t => ids.contains t.topMessageId }

section Topics

namespace Db

variable (db : Db)

def getTopicByTopMsg (channelId : ChannelId) (topMsgId : RefId) : Option ForumTopic :=
  db.topics.rows.find? fun t =>
    t.channelId == channelId && t.topMessageId == topMsgId && !t.deleted

def getGeneralTopic (channelId : ChannelId) : Option ForumTopic :=
  (db.topics.get (channelId, 1)).filter fun t => !t.deleted

def resolveTopicTopMessage (channel : Channel) (topMsgId : RefId) (userId : UserId) :
    Except Failure MessageRef := do
  let topic ← orRaise (db.getTopicByTopMsg channel.id topMsgId) (.rpc 400 "TOPIC_ID_INVALID")
  require (!topic.closed || db.managesTopics channel userId) (.rpc 400 "TOPIC_CLOSED")
  orRaise (db.findRef channel.id topMsgId) (.rpc 400 "TOPIC_ID_INVALID")

/-- `validate_topic_title`; a title counts by its stripped length. -/
def validateTopicTitle (length : Nat) : Except Failure Unit := do
  require (length != 0) (.rpc 400 "TOPIC_TITLE_EMPTY")
  require (length ≤ 128) (.rpc 400 "TOPIC_TITLE_TOO_LONG")

def setNextTopicId (channel : Channel) : Db :=
  db.updateChannel channel.id (fun c => { c with nextTopicId := channel.nextTopicId + 1 })
    fun _ => rfl

/-- Store the first message of a topic and the topic; a number that is taken is refused. -/
def addTopic (channelId : ChannelId) (userId : UserId) (topicId : Nat) : Except Failure Db := do
  require (db.topics.get (channelId, topicId)).isNone .other
  let stored := db.addRef
    { id := 0, channelId, type := serviceTopicCreate, authorId := some userId }
  .ok { stored with topics := db.topics.insert { topicId, channelId, topMessageId := db.nextId } }

def createForumTopicRecord (channel : Channel) (userId : UserId) (titleLength : Nat)
    (topicId : Option Nat) : Except Failure Db := do
  validateTopicTitle titleLength
  match topicId with
  | some given => db.addTopic channel.id userId given
  | none => (db.setNextTopicId channel).addTopic channel.id userId channel.nextTopicId

/-- `ensure_general_topic`; a transaction that fails leaves nothing. -/
def ensureGeneralTopic (channel : Channel) (userId : UserId) : Db :=
  if (db.getGeneralTopic channel.id).isSome then db
  else
    match db.createForumTopicRecord channel userId "General".length (some 1) with
    | .ok after => after
    | .error _ => db

def setForum (channel : Channel) (forum : Bool) : Db :=
  db.updateChannel channel.id (fun c => { c with forum }) fun _ => rfl

def getForumChannel (input : Except Failure ChannelId) : Except Failure Channel := do
  let channelId ← input
  orRaise ((db.channels.get channelId).filter fun c => !c.deleted && c.supergroup)
    (.rpc 406 "CHANNEL_PRIVATE")

def requireForumChannel (input : Except Failure ChannelId) : Except Failure Channel := do
  let channel ← db.getForumChannel input
  require channel.forum (.rpc 400 "CHANNEL_INVALID")
  .ok channel

/-- `get_participant_raise` and a right. -/
def requireRight (channel : Channel) (userId : UserId) (right : Nat) : Except Failure Unit := do
  let participant ← orRaise (db.getParticipant channel userId) (.rpc 400 "CHAT_RESTRICTED")
  require (adminHasPermission channel participant right) (.rpc 403 "CHAT_ADMIN_REQUIRED")

end Db

structure ToggleForum where
  channel : Except Failure ChannelId
  enabled : Bool

def toggleForum (db : Db) (userId : UserId) (r : ToggleForum) : Except Failure Db := do
  let channel ← db.getForumChannel r.channel
  db.requireRight channel userId Channels.ChatAdminRights.changeInfo
  require (r.enabled != channel.forum) (.rpc 400 "CHAT_NOT_MODIFIED")
  if r.enabled then .ok ((db.setForum channel true).ensureGeneralTopic channel userId)
  else .ok (db.setForum channel false)

structure CreateForumTopic where
  channel : Except Failure ChannelId
  titleLength : Nat

def createForumTopic (db : Db) (userId : UserId) (r : CreateForumTopic) : Except Failure Db := do
  let channel ← db.requireForumChannel r.channel
  db.requireRight channel userId manageTopicsRight
  Db.validateTopicTitle r.titleLength
  db.createForumTopicRecord channel userId r.titleLength none

/-- `others` says whether the icon or the visibility is edited. -/
structure EditForumTopic where
  channel : Except Failure ChannelId
  topicId : Nat
  titleLength : Option Nat
  closed : Option Bool
  others : Bool

def editForumTopic (db : Db) (userId : UserId) (r : EditForumTopic) : Except Failure Db := do
  let channel ← db.requireForumChannel r.channel
  db.requireRight channel userId manageTopicsRight
  let topic ← orRaise ((db.topics.get (channel.id, r.topicId)).filter fun t => !t.deleted)
    (.rpc 400 "TOPIC_ID_INVALID")
  r.titleLength.forM Db.validateTopicTitle
  require (r.titleLength.isSome || r.closed.isSome || r.others) (.rpc 400 "TOPIC_NOT_MODIFIED")
  let saved := { db with
    topics := db.topics.modify (fun t => t.key == topic.key)
      (fun t => { t with closed := r.closed.getD t.closed }) fun _ => rfl }
  .ok (saved.addRef
    { id := 0, channelId := channel.id, type := serviceTopicEdit, authorId := some userId
      topMessageId := some topic.topMessageId })

structure DeleteTopicHistory where
  channel : Except Failure ChannelId
  topMsgId : RefId

def deleteTopicHistory (db : Db) (userId : UserId) (r : DeleteTopicHistory) :
    Except Failure Db := do
  let channel ← db.requireForumChannel r.channel
  db.requireRight channel userId deleteMessagesRight
  let _ ← orRaise (db.getTopicByTopMsg channel.id r.topMsgId) (.rpc 400 "TOPIC_ID_INVALID")
  .ok (db.removeRefs ((db.refs.rows.filter fun m => m.channelId == channel.id &&
    m.topMessageId == some r.topMsgId && m.id != r.topMsgId).map MessageRef.id))

/-- `CreateChannel`, after the checks of the request. -/
structure CreateChannel where
  broadcast : Bool
  megagroup : Bool
  forum : Bool

def Channel.ofRequest (id : ChannelId) (userId : UserId) (r : CreateChannel) : Channel where
  toChannel := Channels.newChannel id userId r.broadcast r.megagroup
  minAvailableId := none
  minAvailableIdForce := none
  forum := r.forum && r.megagroup
  nextTopicId := 2

def creatorParticipant (id : ChannelId) (userId : UserId) : History.ChatParticipant where
  toChatParticipant := ⟨userId, Channels.ChatBannedRights.none,
    Channels.ChatAdminRights.creatorRights, false⟩
  channelId := id
  minMessageId := none

-- The message about the creation is sent afterwards.
def createChannel (db : Db) (userId : UserId) (r : CreateChannel) : Db :=
  let channel := Channel.ofRequest db.channels.nextKey userId r
  let stored := { db with
    channels := db.channels.insert channel
    participants := db.participants.insert (creatorParticipant channel.id userId) }
  if channel.forum then stored.ensureGeneralTopic channel userId else stored

end Topics

section Discussions

/-- `ensure_discussion_thread`: the first time, the post is mirrored in the discussion group. -/
def ensureDiscussionThread (db : Db) (messageId : RefId) : Db :=
  match db.refs.get messageId with
  | none => db
  | some post =>
    match (db.channels.get post.channelId).filter fun c =>
        c.channel && !c.isDiscussion && post.type == .regular with
    | none => db
    | some broadcast =>
      match broadcast.discussionId.bind db.channels.get with
      | none => db
      | some group =>
        if (post.discussionId.or post.discussionTopMessageId).isSome then db
        else
          (db.addRef { id := 0, channelId := group.id, type := .regular, authorId := none
                       isDiscussion := true }).updateRefs (fun m => m.id == post.id)
            (fun m => { m with
              discussionId := some db.nextId
              discussionTopMessageId := some db.nextId
              repliesVersion := m.repliesVersion + 1 }) fun _ => rfl

namespace MessageRef

variable (m : MessageRef)

/-- Made by `ensure_discussion_thread`, and not just marked as such by a forward. -/
def isMirror : Bool := m.isDiscussion && m.authorId.isNone

def discussionThreadId : Option RefId := m.discussionId.or m.discussionTopMessageId

def hasDiscussionThread : Bool := m.isDiscussion || m.discussionThreadId.isSome

def cacheKeyReplies : RefId × Nat := (m.id, m.repliesVersion)

end MessageRef

namespace Db

variable (db : Db)

def repliesTo (id : RefId) : List MessageRef :=
  db.refs.rows.filter fun m => m.replyToId == some id || m.topMessageId == some id

def maxId (refs : List MessageRef) : Option RefId := (refs.map MessageRef.id).max?

/-- What `to_tl_replies` computes, but for the recent repliers. -/
def countReplies (m : MessageRef) : Option MessageReplies :=
  if m.isDiscussion then
    some { replies := (db.repliesTo m.id).length, maxId := maxId (db.repliesTo m.id) }
  else
    m.discussionThreadId.bind fun thread =>
      ((db.channels.get m.channelId).bind fun c => c.discussionId).map fun linked =>
        { replies := (db.repliesTo thread).length, maxId := maxId (db.repliesTo thread)
          comments := true, channelId := some linked }

def setCache (key : RefId × Nat) (value : Option MessageReplies) : Db :=
  { db with cache := fun k => if k = key then value else db.cache k }

def toTlReplies (m : MessageRef) : Option MessageReplies × Db :=
  if !m.hasDiscussionThread then (none, db)
  else
    match db.cache m.cacheKeyReplies with
    | some cached => (some cached, db)
    | none =>
      match db.countReplies m with
      | some replies => (some replies, db.setCache m.cacheKeyReplies (some replies))
      | none => (none, db)

end Db

end Discussions

section Sending

/-- The arguments of `send_message_internal` for the peer of a channel. -/
structure Send where
  userId : UserId
  bot : Bool
  channelId : ChannelId
  authorId : UserId
  replyToMessageId : Option RefId
  topMsgId : Option RefId
  replyTo : Option MessageRef
  opposite : Bool
  /-- The date is given and far enough ahead. -/
  scheduled : Bool
  type : MessageType
  /-- What `_check_spam_blocked` finds. -/
  spamCheck : Except Failure Unit

def Send.checkSpamBlocked (r : Send) : Except Failure Unit :=
  if r.opposite && !r.bot then r.spamCheck else .ok ()

/-- The topic that the request names, where the channel has topics; 0 names none. -/
def Send.namesTopic (r : Send) (channel : Channel) : Option RefId :=
  (r.topMsgId.bind truthy).filter fun _ => channel.forum

namespace Db

variable (db : Db) (channel : Channel) (r : Send)

def availableReply : Option RefId :=
  r.replyToMessageId.filter fun id => !(r.opposite && id != 0 &&
    (channel.minId (db.getParticipant channel r.userId)).any fun minId => decide (id ≤ minId))

def namedTopic : Except Failure (Option MessageRef) :=
  match r.namesTopic channel with
  | some topMsgId => (db.resolveTopicTopMessage channel topMsgId r.userId).map some
  | none => .ok none

def replyToMessageId : Option RefId := (db.availableReply channel r).or (r.namesTopic channel)

def findReply (replyTo : Option MessageRef) : Except Failure (Option MessageRef) := do
  let named := (db.replyToMessageId channel r).bind truthy
  let found := replyTo.or (named.bind (db.findRef channel.id))
  require (named.isNone || found.isSome) (.rpc 400 "REPLY_TO_INVALID")
  .ok found

def replyToTop (replyTo top : Option MessageRef) : Option MessageRef :=
  match replyTo, db.replyToMessageId channel r with
  | some replied, none =>
    if !(r.opposite && channel.supergroup) then top
    else if channel.forum then
      top.or (match replied.topMessageId with
        | some id => db.refs.get id
        | none => if (db.getTopicByTopMsg channel.id replied.id).isSome then replied else none)
    else if replied.isDiscussion then replied
    else
      match replied.topMessageId with
      | some id => db.refs.get id
      | none => (replied.replyToId.bind db.refs.get).or top
  | _, _ => top

def orGeneral (top : Option MessageRef) : Except Failure (Option MessageRef) :=
  if top.isNone && r.opposite && channel.forum then
    match db.getGeneralTopic channel.id with
    | some general => (orRaise (db.refs.get general.topMessageId) .other).map some
    | none => .ok none
  else .ok top

def touchPost (top : Option MessageRef) : Db :=
  db.updateRefs (fun m => top.any fun t => t.isDiscussion && m.discussionId == some t.id)
    (fun m => { m with repliesVersion := m.repliesVersion + 1 }) fun _ => rfl

def drafted (replyTo top : Option MessageRef) : MessageRef where
  id := db.nextId
  channelId := channel.id
  type := if r.scheduled then .scheduled else r.type
  authorId := some r.authorId
  replyToId := replyTo.map MessageRef.id
  topMessageId := top.map MessageRef.id

def sendMessageInternal : Except Failure (Db × MessageRef) := do
  let channel ← orRaise (db.channels.get r.channelId) .other
  r.checkSpamBlocked
  -- The argument is overwritten before anything reads it.
  let replyTo : Option MessageRef := none
  let top ← db.namedTopic channel r
  let replyTo ← db.findReply channel r replyTo
  let top ← db.orGeneral channel r (db.replyToTop channel r replyTo top)
  let message := db.drafted channel r replyTo top
  .ok ((db.addRef message).touchPost top, message)

/-- `SendScheduledMessage`: the copy replies to what the scheduled message replies to, and has no
top message. The failure after the transaction undoes nothing. -/
def sendScheduled (messageId : RefId) : Option (Db × MessageRef) :=
  ((db.refs.get messageId).filter fun m => m.type == .scheduled).map fun scheduled =>
    let message : MessageRef :=
      { id := db.nextId, channelId := scheduled.channelId, type := .regular
        authorId := scheduled.authorId, replyToId := scheduled.replyToId, fromScheduled := true }
    ((db.addRef message).removeRefs [messageId], message)

end Db

/-- `forward_for_peers_bulk`: a copy may reply to an earlier copy of the same request. The flag is
the sequence that is passed, not its element. -/
def Db.forwardForPeers (channelId : ChannelId) (userId : UserId) :
    List RefId → List (Option Nat) → Db → Db
  | _, [], db => db
  | created, reply :: rest, db =>
    forwardForPeers channelId userId (created ++ [db.nextId]) rest (db.addRef
      { id := 0, channelId, type := .regular, authorId := some userId
        replyToId := reply.bind fun i => created[i]?, isDiscussion := true })

end Sending

section Runs

/-- What happens to the channels and their messages, one request after the other. -/
inductive Event
  | createChannel (userId : UserId) (r : CreateChannel)
  | toggleForum (userId : UserId) (r : ToggleForum)
  | createForumTopic (userId : UserId) (r : CreateForumTopic)
  | editForumTopic (userId : UserId) (r : EditForumTopic)
  | deleteTopicHistory (userId : UserId) (r : DeleteTopicHistory)
  | ensureDiscussionThread (messageId : RefId)
  | send (r : Send)
  | sendScheduled (messageId : RefId)
  | forward (channelId : ChannelId) (userId : UserId) (replies : List (Option Nat))
  /-- Any other way to delete messages, and the posts whose replies are then counted anew. -/
  | deleteMessages (ids posts : List RefId)
  | toTlReplies (messageId : RefId)
  | evict (key : RefId × Nat)
  /-- Other changes to the settings of a channel: its links, its owner, what it hides. -/
  | editChannel (channelId : ChannelId) (change : History.Channel → History.Channel)
  | editParticipants (participants : Table History.ChatParticipant.key)

def Channel.configure (change : History.Channel → History.Channel) (c : Channel) : Channel :=
  { c with toHistory := { change c.toHistory with id := c.id } }

def handle (db : Db) : Event → Except Failure Db
  | .createChannel userId r => .ok (createChannel db userId r)
  | .toggleForum userId r => toggleForum db userId r
  | .createForumTopic userId r => createForumTopic db userId r
  | .editForumTopic userId r => editForumTopic db userId r
  | .deleteTopicHistory userId r => deleteTopicHistory db userId r
  | .ensureDiscussionThread messageId => .ok (ensureDiscussionThread db messageId)
  | .send r => (db.sendMessageInternal r).map Prod.fst
  | .sendScheduled messageId => .ok (((db.sendScheduled messageId).map Prod.fst).getD db)
  | .forward channelId userId replies => .ok (Db.forwardForPeers channelId userId [] replies db)
  | .deleteMessages ids posts =>
    .ok ((db.removeRefs ids).updateRefs (fun m => posts.contains m.id)
      (fun m => { m with repliesVersion := m.repliesVersion + 1 }) fun _ => rfl)
  | .toTlReplies messageId =>
    .ok (((db.refs.get messageId).map fun m => (db.toTlReplies m).2).getD db)
  | .evict key => .ok (db.setCache key none)
  | .editChannel channelId change =>
    .ok (db.updateChannel channelId (Channel.configure change) fun _ => rfl)
  | .editParticipants participants => .ok { db with participants }

/-- A request that fails leaves everything as it was. -/
def step (db : Db) (e : Event) : Option Db :=
  match handle db e with
  | .ok after => some after
  | .error _ => some db

end Runs

end Piltover.Forums
