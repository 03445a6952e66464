/- source: piltover/app/handlers/channels.py
   digest: Channels, their usernames and participants, and the handlers that link them to groups. -/

import Piltover.Channels.Rights
import Piltover.Failure
import Piltover.Foundation.Table

set_option autoImplicit false

namespace Piltover.Channels

open Piltover.Foundation

abbrev ChannelId := Nat

/-- `Channel.make_id_from`. -/
def makeId (id : ChannelId) : Nat := id * 2 + 1

structure ChatPhoto where
  hasVideo : Bool
  photoId : Nat
  dcId : Nat
  strippedThumb : Option (List UInt8)
  deriving DecidableEq, Repr

namespace ChatAdminRights

/-- `ChatAdminRights.from_tl(CREATOR_RIGHTS)`: every right but to stay anonymous. -/
def creatorRights : Nat :=
  1 <<< 0 ||| 1 <<< 1 ||| 1 <<< 2 ||| 1 <<< 3 ||| 1 <<< 4 ||| 1 <<< 5 ||| 1 <<< 7 ||| 1 <<< 9
    ||| 1 <<< 11 ||| 1 <<< 12 ||| 1 <<< 13 ||| 1 <<< 14 ||| 1 <<< 15 ||| 1 <<< 16

end ChatAdminRights

structure Username where
  username : String
  channelId : ChannelId
  deriving DecidableEq, Repr

/-- The tables; `taken` holds the usernames of users, and ids start at one. -/
structure Db where
  channels : Table Channel.id
  usernames : List Username
  taken : List String
  participants : List (ChannelId × ChatParticipant)
  nextId : ChannelId

namespace Db

def initial : Db := ⟨Table.empty, [], [], [], 1⟩

/-- `Username.filter(channel=channel).exists()`. -/
def hasUsername (db : Db) (channel : ChannelId) : Bool :=
  db.usernames.any fun u => u.channelId == channel

def participantsOf (db : Db) (channel : ChannelId) : List ChatParticipant :=
  db.participants.filterMap fun row => if row.1 = channel then some row.2 else none

def getParticipant (db : Db) (channel : ChannelId) (user : UserId) : Option ChatParticipant :=
  ChatOrChannel.getParticipant (db.participantsOf channel) user

def updateChannel (db : Db) (id : ChannelId) (change : Channel → Channel)
    (keeps : ∀ c, (change c).id = c.id) : Db :=
  { db with channels := db.channels.modify (fun c => decide (c.id = id)) change keeps }

end Db

/-- `InputChannel` or `InputPeerChannel`; `hashValid` says whether the access hash is the one that
belongs to this user, session and channel. -/
structure InputChannel where
  channelId : Nat
  accessHash : Int
  hashValid : Bool
  deriving DecidableEq, Repr

/-- `ChatBase.norm_id`. -/
def normId (id : Nat) : ChannelId := id / 2

def Db.getFromInput (db : Db) (user : UserId) (input : InputChannel) : Option Channel :=
  (db.channels.get (normId input.channelId)).filter fun c =>
    !c.deleted &&
      if input.accessHash = 0 then (db.getParticipant c.id user).isSome else input.hashValid

/-! ### Creation, deletion, change of the owner -/

/-- A creation request; title and description count by their stripped lengths. -/
structure CreateChannel where
  featureEnabled : Bool
  spamBlocked : Bool
  broadcast : Bool
  megagroup : Bool
  titleLength : Nat
  aboutLength : Nat
  forum : Bool
  deriving DecidableEq, Repr

def newChannel (id : ChannelId) (creator : UserId) (isChannel isSupergroup : Bool) : Channel where
  creatorId := creator
  bannedRights := ChatBannedRights.none
  id := id
  channel := isChannel
  supergroup := isSupergroup
  nojoinAllowView := false
  hiddenPrehistory := false
  joinToSend := true
  discussionId := none
  isDiscussion := false
  slowmodeSeconds := none
  deleted := false
  version := 1

def createChannel (db : Db) (user : UserId) (r : CreateChannel) : Except Failure Db := do
  require r.featureEnabled (.rpc 400 "CHANNELS_TOO_MUCH")
  require (!r.spamBlocked) (.rpc 403 "USER_RESTRICTED")
  require (r.broadcast || r.megagroup) (.rpc 400 "CHANNELS_TOO_MUCH")
  require (!(r.broadcast && r.megagroup)) (.rpc 400 "CHANNEL_INVALID")
  require (r.titleLength != 0) (.rpc 400 "CHAT_TITLE_EMPTY")
  require (r.titleLength ≤ 64) (.rpc 400 "CHAT_TITLE_EMPTY")
  require (r.aboutLength ≤ 255) (.rpc 400 "CHAT_ABOUT_TOO_LONG")
  require (!(r.forum && r.broadcast)) (.rpc 400 "CHANNEL_INVALID")
  .ok { db with
    channels := db.channels.insert (newChannel db.nextId user r.broadcast r.megagroup)
    participants := db.participants ++
      [(db.nextId, ⟨user, ChatBannedRights.none, ChatAdminRights.creatorRights, false⟩)]
    nextId := db.nextId + 1 }

/-- `_unlink_channel_maybe`; an id is never 0, so that a link counts as true. -/
def unlinkChannelMaybe (db : Db) (channel : Channel) : Db :=
  if channel.isDiscussion then
    { db with
      channels := db.channels.modify (fun c => decide (c.discussionId = some channel.id))
        (fun c => { c with discussionId := none }) fun _ => rfl }
  else
    match channel.discussionId with
    | some group => db.updateChannel group (fun c => { c with isDiscussion := false }) fun _ => rfl
    | none => db

def deleteChannel (db : Db) (user : UserId) (input : InputChannel) : Except Failure Db := do
  let channel ← orRaise (db.getFromInput user input) (.rpc 406 "CHANNEL_PRIVATE")
  require (channel.creatorId == user) (.rpc 400 "CHAT_ADMIN_REQUIRED")
  let saved := db.updateChannel channel.id
    (fun c => { c with deleted := true, version := channel.version + 1 }) fun _ => rfl
  .ok (unlinkChannelMaybe saved channel)

structure EditCreator where
  channel : InputChannel
  /-- The two-step password of the user exists and is the one that was sent. -/
  password : Except Failure Unit
  /-- The user that the request names; oneself is no peer of the right type. -/
  target : Except Failure UserId

def Db.setAdminRights (db : Db) (channel : ChannelId) (user : UserId) (rights : Nat) : Db :=
  { db with
    participants := db.participants.map fun row =>
      if row.1 = channel ∧ row.2.userId = user then (row.1, { row.2 with adminRights := rights })
      else row }

def editCreator (db : Db) (user : UserId) (r : EditCreator) : Except Failure Db := do
  let channel ← orRaise (db.getFromInput user r.channel) (.rpc 406 "CHANNEL_PRIVATE")
  require (channel.creatorId == user) (.rpc 400 "CHAT_ADMIN_REQUIRED")
  let _ ← orRaise (db.getParticipant channel.id user) (.rpc 400 "CHAT_ADMIN_REQUIRED")
  r.password
  let target ← r.target
  require (target != user) (.rpc 400 "USER_ID_INVALID")
  let _ ← orRaise (db.getParticipant channel.id target) (.rpc 400 "USER_ID_INVALID")
  let saved := db.updateChannel channel.id
    (fun c => { c with creatorId := target, version := channel.version + 1 }) fun _ => rfl
  let promoted := (saved.setAdminRights channel.id user 0).setAdminRights channel.id target
    ChatAdminRights.creatorRights
  .ok (unlinkChannelMaybe promoted channel)

/-! ### Usernames -/

structure UpdateUsername where
  /-- The channel that the input peer resolves to. -/
  channel : Except Failure ChannelId
  /-- The new username, normalized; empty to remove it. -/
  username : String
  /-- The username fits the pattern. -/
  valid : Bool

def adminHasPermission (c : Channel) (p : ChatParticipant) (permission : Nat) : Bool :=
  c.creatorId == p.userId || (p.adminRights &&& permission) == permission

/-- Give the channel the username instead of the one it has, or take it away. -/
def Db.putUsername (db : Db) (channel : ChannelId) (username : String) : Db :=
  if db.hasUsername channel then
    if username = "" then
      { db with usernames := db.usernames.filter fun u => u.channelId != channel }
    else
      { db with
        usernames := db.usernames.map fun u =>
          if u.channelId = channel then { u with username := username } else u }
  else { db with usernames := db.usernames ++ [⟨username, channel⟩] }

def updateUsername (db : Db) (user : UserId) (r : UpdateUsername) : Except Failure Db := do
  let id ← r.channel
  let channel ← orRaise ((db.channels.get id).filter fun c => !c.deleted)
    (.rpc 406 "CHANNEL_PRIVATE")
  require ((db.getParticipant channel.id user).any fun p =>
    adminHasPermission channel p ChatAdminRights.changeInfo) (.rpc 403 "CHAT_ADMIN_REQUIRED")
  let current := db.usernames.find? fun u => u.channelId == channel.id
  require (!((r.username == "" && current.isNone)
    || current.any fun u => u.username == r.username)) (.rpc 400 "USERNAME_NOT_MODIFIED")
  require (r.username == "" || r.valid) (.rpc 400 "USERNAME_INVALID")
  require (r.username == "" || !(db.usernames.any (fun u => u.username == r.username)
    || db.taken.contains r.username)) (.rpc 400 "USERNAME_OCCUPIED")
  let named := db.putUsername channel.id r.username
  let shown := if r.username ≠ "" ∧ channel.hiddenPrehistory = true then
      named.updateChannel channel.id (fun c => { c with hiddenPrehistory := false }) fun _ => rfl
    else named
  let linked :=
    match channel.discussionId with
    | none => shown
    | some group =>
      { shown with
        channels := shown.channels.modify
          (fun c => decide (c.id = group) && c.isDiscussion)
          (fun c => { c with nojoinAllowView := r.username != "", version := c.version + 1 })
          fun _ => rfl }
  .ok (linked.updateChannel channel.id (fun c => { c with version := c.version + 1 }) fun _ => rfl)

/-! ### Linking -/

inductive InputGroup
  | channel (input : InputChannel)
  | empty
  | other
  deriving DecidableEq, Repr

structure SetDiscussionGroup where
  broadcast : InputChannel
  group : InputGroup
  deriving DecidableEq, Repr

/-- A row after `Channel.bulk_update` of the four fields that linking writes; the first object with
the id of the row counts. -/
def writeRow (objects : List Channel) (row : Channel) : Channel :=
  match objects.find? fun o => o.id = row.id with
  | none => row
  | some o =>
    { row with
      discussionId := o.discussionId
      isDiscussion := o.isDiscussion
      nojoinAllowView := o.nojoinAllowView
      version := o.version }

theorem writeRow_id (objects : List Channel) (row : Channel) :
    (writeRow objects row).id = row.id := by
  unfold writeRow
  split <;> rfl

/-- Two channels with one discussion group violate the unique column. -/
def Db.bulkUpdate (db : Db) (objects : List Channel) : Except Failure Db :=
  let channels := db.channels.modify (fun _ => true) (writeRow objects) (writeRow_id objects)
  if (channels.rows.filterMap Channel.discussionId).Nodup then .ok { db with channels }
  else .error .other

/-- The user is a participant with the right to change a channel, as far as `check_rights` tells. -/
def Db.checkLinkRights (db : Db) (c : Channel) (user : UserId) : Except Failure Unit := do
  let participant ← orRaise (db.getParticipant c.id user) (.rpc 400 "CHAT_ADMIN_REQUIRED")
  require (ChatOrChannel.checkRights (.channel c) (some participant) ChatAdminRights.changeInfo
    ChatBannedRights.viewMessages) (.rpc 400 "CHAT_ADMIN_REQUIRED")

def Db.resolveGroup (db : Db) (user : UserId) (channel : Channel) :
    InputGroup → Except Failure (Option Channel)
  | .channel input => do
      let group ← orRaise (db.getFromInput user input) (.rpc 406 "MEGAGROUP_ID_INVALID")
      db.checkLinkRights group user
      require (group.supergroup && !group.isDiscussion) (.rpc 400 "MEGAGROUP_ID_INVALID")
      require (!group.hiddenPrehistory) (.rpc 400 "MEGAGROUP_PREHISTORY_HIDDEN")
      require (decide (some group.id ≠ channel.discussionId)) (.rpc 400 "MEGAGROUP_ID_INVALID")
      .ok (some group)
  | .empty => .ok none
  | .other => .error (.rpc 400 "MEGAGROUP_ID_INVALID")

/-- `channels_to_update`: the channel with its new link, the group that it leaves, the group that it
is linked to. -/
def channelsToUpdate (db : Db) (channel : Channel) (group : Option Channel) : List Channel :=
  let oldGroup := channel.discussionId.bind db.channels.get
  let linked : Channel :=
    { channel with discussionId := group.map Channel.id, version := channel.version + 1 }
  let unmarked := oldGroup.map fun g : Channel =>
    { g with isDiscussion := false, nojoinAllowView := false, version := g.version + 1 }
  let marked := group.map fun g : Channel =>
    { g with
      isDiscussion := true
      nojoinAllowView := db.hasUsername channel.id
      version := g.version + 1 }
  [linked] ++ unmarked.toList ++ marked.toList

def setDiscussionGroup (db : Db) (user : UserId) (r : SetDiscussionGroup) :
    Except Failure Db := do
  let channel ← orRaise (db.getFromInput user r.broadcast) (.rpc 400 "BROADCAST_ID_INVALID")
  db.checkLinkRights channel user
  let group ← db.resolveGroup user channel r.group
  require (!(channel.discussionId.isNone && group.isNone)) (.rpc 400 "LINK_NOT_MODIFIED")
  require (group.all fun g => decide (channel.discussionId ≠ some g.id))
    (.rpc 400 "LINK_NOT_MODIFIED")
  db.bulkUpdate (channelsToUpdate db channel group)

end Piltover.Channels
