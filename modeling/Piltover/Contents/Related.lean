/- source: piltover/db/models/message_content.py, piltover/db/models/message_related.py,
     piltover/db/models/message_fwd_header.py, piltover/utils/users_chats_channels.py,
     piltover/app/handlers/messages/sending.py
   digest: The users, chats and channels that a message mentions, and the rows that relate them. -/

import Mathlib.Data.List.Dedup
import Piltover.Contents.Content
import Piltover.Foundation.Table

set_option autoImplicit false

namespace Piltover.Contents

open Piltover.Foundation

inductive Named
  | user (id : Nat)
  | chat (id : Nat)
  | channel (id : Nat)
  deriving DecidableEq, Repr

/-! ### What formatting mentions -/

def Peer.toTl (self : Peer) : Option Named :=
  match self.target with
  | .self => self.ownerId.map .user
  | .user userId => some (.user userId)
  | .chat c => some (.chat c.id)
  | .channel c => some (.channel c.id)

/-- The peer of a message, for its owner and in a private chat for the other user. -/
def Peer.mentions (self : Peer) : List Named :=
  self.toTl.toList ++ match self.target with
    | .user _ => (self.ownerId.map Named.user).toList
    | _ => []

def Action.mentions : Action → List Named
  | .chatCreate users => users.map .user
  | .chatAddUser users => users.map .user
  | .chatDeleteUser userId => [.user userId]
  | .chatJoinedByLink inviterId => [.user inviterId]
  | .chatMigrateTo channelId => [.channel channelId]
  | .channelMigrateFrom chatId => [.chat chatId]
  | .inviteToGroupCall users => users.map .user
  | .other => []

def Entity.mentions : Entity → List Named
  | .mentionName userId => [.user userId]
  | .other _ => []

namespace MessageFwdHeader

variable (self : MessageFwdHeader)

def fromId : Option Named :=
  (self.fromUser.map .user).or ((self.fromChat.map .chat).or (self.fromChannel.map .channel))

def savedFromPeer : Option Named :=
  if self.savedId.any (· != 0) then self.savedPeer.bind Peer.toTl else none

def savedFromId : Option Named := (self.savedFrom.filter (· != 0)).map .user

/-- What `to_tl` names. -/
def mentions : List Named :=
  self.fromId.toList ++ (self.savedFromPeer.toList ++ self.savedFromId.toList)

end MessageFwdHeader

namespace MessageContent

variable (self : MessageContent)

def isService : Bool := self.type != .regular && self.type != .scheduled

def makeFromId : Option Named :=
  match self.sendAsChannelId with
  | some id => some (.channel id)
  | none =>
    if self.channelPost || self.anonymous then none
    else self.author.map fun author => .user author.id

end MessageContent

/-- A content, the peer that it is made for, and what its action names where that is `other`. -/
structure Message where
  content : MessageContent
  peer : Peer
  named : List Named
  deriving DecidableEq, Repr

namespace Message

variable (m : Message)

def actionMentions : List Named :=
  match m.content.extraInfo with
  | none => []
  | some .other => m.named
  | some action => action.mentions

/-- What `to_tl_service_content` or `_to_tl_content` names beside the author. -/
def contentMentions : List Named :=
  if m.content.isService then m.actionMentions
  else m.content.entities.flatMap Entity.mentions ++
    ((m.content.fwdHeader.toList.flatMap MessageFwdHeader.mentions) ++
      (m.content.viaBot.map Named.user).toList)

def mentions : List Named :=
  m.peer.mentions ++ (m.content.makeFromId.toList ++ m.contentMentions)

end Message

/-! ### What is related -/

/-- `_fill_related_peer`. -/
def Peer.fillRelated (self : Peer) : List Named :=
  (self.userId.map Named.user).toList ++ ((self.ownerId.map Named.user).toList ++
    ((self.chatId.map Named.chat).toList ++ (self.channelId.map Named.channel).toList))

def MessageFwdHeader.fillRelated (self : MessageFwdHeader) : List Named :=
  (self.fromUser.map Named.user).toList ++ ((self.fromChat.map Named.chat).toList ++
    ((self.fromChannel.map Named.channel).toList ++
      (self.savedPeer.toList.flatMap Peer.fillRelated ++ (self.savedFrom.map Named.user).toList)))

/-- The types whose action `_fill_related` reads. -/
def readsAction (type : MessageType) : Bool :=
  type == .serviceChatUserAdd || type == .serviceChatUserDel || type == .serviceChatMigrateTo ||
    type == .serviceChatMigrateFrom

namespace MessageContent

variable (self : MessageContent)

/-- The actions that `_fill_related` reads; bytes of another constructor are refused. -/
def fillAction : Except Failure (List Named) :=
  match self.type, self.extraInfo with
  | .serviceChatUserAdd, some (.chatAddUser users) => .ok (users.map .user)
  | .serviceChatUserAdd, _ => .error .other
  | .serviceChatUserDel, some (.chatDeleteUser userId) => .ok [.user userId]
  | .serviceChatUserDel, _ => .error .other
  | .serviceChatMigrateTo, some (.chatMigrateTo channelId) => .ok [.channel channelId]
  | .serviceChatMigrateTo, _ => .error .other
  | .serviceChatMigrateFrom, some (.channelMigrateFrom chatId) => .ok [.chat chatId]
  | .serviceChatMigrateFrom, _ => .error .other
  | _, _ => .ok []

def fillAuthor : List Named :=
  if !self.channelPost && !self.anonymous then
    ((self.author.map User.id).filter (· != 0) |>.map Named.user).toList
  else []

def fillRelated (relatedPeer : Peer) : Except Failure (List Named) :=
  self.fillAction.map fun action =>
    relatedPeer.fillRelated ++ (self.fillAuthor ++ ((self.sendAsChannelId.map .channel).toList ++
      (action ++ (self.entities.flatMap Entity.mentions ++
        (self.fwdHeader.toList.flatMap MessageFwdHeader.fillRelated ++
          (self.viaBot.map Named.user).toList)))))

/-- The row of `clone_scheduled`. -/
def cloneScheduled (id : Nat) (now : Int) : MessageContent where
  id := id
  message := self.message
  date := now
  type := .regular
  author := self.author
  media := self.media
  fwdHeader := self.fwdHeader
  entities := self.entities
  mediaGroupId := self.mediaGroupId
  channelPost := self.channelPost
  anonymous := self.anonymous
  postAuthor := self.postAuthor
  postInfo := self.postInfo
  ttlPeriodDays := self.ttlPeriodDays
  sendAsChannelId := self.sendAsChannelId
  canSeeReactionsList := self.canSeeReactionsList

def cloneDiscussionMirror (id : Nat) (relatedPeer : Peer) (broadcastChannelId : Nat) :
    MessageContent where
  id := id
  message := self.message
  entities := self.entities
  date := self.date
  type := .regular
  author := none
  media := self.media
  mediaGroupId := self.mediaGroupId
  channelPost := false
  postInfo := self.postInfo
  postAuthor := self.postAuthor
  sendAsChannelId := some broadcastChannelId
  noForwards := self.noForwards
  canSeeReactionsList := relatedPeer.canSeeReactionsList

end MessageContent

/-- What an edit may change; without a text the entities stay as well. -/
structure Edit where
  userId : Nat
  text : Option (String × List Entity)
  media : Option Nat
  replyMarkup : Option String
  scheduledDate : Option Int
  now : Int
  deriving DecidableEq, Repr

namespace MessageContent

variable (self : MessageContent) (e : Edit)

/-- `edit_message` reaches regular and scheduled messages of the user, with another text. -/
def accepts : Bool :=
  !self.isService && self.author.any (fun author => author.id == e.userId) &&
    self.message != e.text.map Prod.fst

/-- The columns that `edit_message` saves. -/
def edited : MessageContent :=
  { self with
    message := (e.text.map fun text => some text.1).getD self.message
    entities := (e.text.map Prod.snd).getD self.entities
    media := e.media.or self.media
    editDate := if self.scheduledDate.isNone then some e.now else none
    replyMarkup := e.replyMarkup.or self.replyMarkup
    scheduledDate := if self.scheduledDate.isSome && e.scheduledDate.isSome then e.scheduledDate
      else self.scheduledDate }

end MessageContent

def Message.edited (e : Edit) (m : Message) : Message := { m with content := m.content.edited e }

/-! ### The rows -/

namespace Related

/-- The rows of users, chats and channels, the messages, and the rows of `MessageRelated`. -/
structure Db where
  existing : List Named
  messages : Table fun m : Message => m.content.id
  related : List (Nat × Named)
  nextContent : Nat

namespace Db

def initial : Db := ⟨[], Table.empty, [], 1⟩

variable (db : Db)

/-- `_create_related`, for what there is of it. -/
def addMessage (m : Message) (names : List Named) : Db where
  existing := db.existing
  messages := db.messages.insert m
  related := db.related ++
    (names.dedup.filter db.existing.contains).map fun id => (m.content.id, id)
  nextContent := m.content.id + 1

/-- A message is made and what it names related, unless its action cannot be read. -/
def store (m : Message) : Except Failure Db :=
  (m.content.fillRelated m.peer).map fun names => db.addMessage m names

def createForPeer (peer : Peer) (content : MessageContent) (named : List Named) :
    Except Failure Db :=
  db.store ⟨{ content with id := db.nextContent }, peer, named⟩

def getForMessage (contentId : Nat) : List Named :=
  (db.related.filter fun row => row.1 == contentId).map Prod.snd

/-- `clone_scheduled`: the rows of the original are copied. -/
def cloneScheduled (m : Message) (now : Int) : Db :=
  db.addMessage ⟨m.content.cloneScheduled db.nextContent now, m.peer, []⟩
    (db.getForMessage m.content.id)

def cloneForward (m : Message) (relatedPeer : Peer) (args : CloneForward)
    (fwdHeader : Option MessageFwdHeader) (postInfo mediaGroupId : Option Nat) :
    Except Failure Db := do
  let copy ← args.clone db.nextContent m.content fwdHeader postInfo mediaGroupId
  db.store ⟨copy, relatedPeer, []⟩

def cloneForwardBulk (messages : List Message) (relatedPeer : Peer) (args : CloneForward)
    (fwdHeaders : List (Option MessageFwdHeader)) (postInfos mediaGroupIds : List (Option Nat)) :
    Except Failure Db := do
  let copies ← args.cloneBulk db.nextContent (messages.map Message.content) fwdHeaders postInfos
    mediaGroupIds
  copies.foldlM (fun db copy => db.store ⟨copy, relatedPeer, []⟩) db

def cloneDiscussionMirror (m : Message) (relatedPeer : Peer) (broadcastChannelId : Nat) :
    Except Failure Db :=
  db.store ⟨m.content.cloneDiscussionMirror db.nextContent relatedPeer broadcastChannelId,
    relatedPeer, []⟩

/-- `edit_message`: the related rows stay. -/
def edit (contentId : Nat) (e : Edit) : Db :=
  { db with
    messages := db.messages.modify (fun m => m.content.id == contentId && m.content.accepts e)
      (Message.edited e) fun _ => rfl }

/-- `UsersChatsChannels.resolve`, after the contents have been added. -/
def resolve (contentIds : List Nat) : List Named :=
  ((db.related.filter fun row => contentIds.contains row.1).map Prod.snd).filter
    db.existing.contains

end Db

/-- A new row of a user, a chat or a channel, or what happens to messages. -/
inductive Event
  | add (row : Named)
  | createForPeer (peer : Peer) (content : MessageContent) (named : List Named)
  | cloneScheduled (contentId : Nat) (now : Int)
  | cloneForward (contentId : Nat) (relatedPeer : Peer) (args : CloneForward)
      (fwdHeader : Option MessageFwdHeader) (postInfo mediaGroupId : Option Nat)
  | cloneForwardBulk (contentIds : List Nat) (relatedPeer : Peer) (args : CloneForward)
      (fwdHeaders : List (Option MessageFwdHeader)) (postInfos mediaGroupIds : List (Option Nat))
  | cloneDiscussionMirror (contentId : Nat) (relatedPeer : Peer) (broadcastChannelId : Nat)
  | edit (contentId : Nat) (e : Edit)
  deriving DecidableEq, Repr

namespace Db

/-- A request that is refused leaves all as it is. -/
def orSame (db : Db) (result : Except Failure Db) : Db := result.toOption.getD db

def apply (db : Db) : Event → Db
  | .add row =>
    if row = .user 0 then db else { db with existing := db.existing ++ [row] }
  | .createForPeer peer content named => db.orSame (db.createForPeer peer content named)
  | .cloneScheduled contentId now =>
    match db.messages.get contentId with
    | none => db
    | some m => if m.content.type = .scheduled then db.cloneScheduled m now else db
  | .cloneForward contentId relatedPeer args fwdHeader postInfo mediaGroupId =>
    match db.messages.get contentId with
    | none => db
    | some m =>
      db.orSame (db.cloneForward m relatedPeer args fwdHeader postInfo mediaGroupId)
  | .cloneForwardBulk contentIds relatedPeer args fwdHeaders postInfos mediaGroupIds =>
    db.orSame (db.cloneForwardBulk (contentIds.filterMap db.messages.get) relatedPeer args
      fwdHeaders postInfos mediaGroupIds)
  | .cloneDiscussionMirror contentId relatedPeer broadcastChannelId =>
    match db.messages.get contentId with
    | none => db
    | some m => db.orSame (db.cloneDiscussionMirror m relatedPeer broadcastChannelId)
  | .edit contentId e => db.edit contentId e

def step (db : Db) (e : Event) : Option Db := some (db.apply e)

end Db

end Related

end Piltover.Contents
