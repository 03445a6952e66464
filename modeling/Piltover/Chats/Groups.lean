/- source: piltover/app/handlers/messages/chats.py, piltover/app/handlers/messages/invites.py,
     piltover/db/models/chat_base.py, piltover/app/utils/updates_manager.py
   digest: Basic groups: who creates, joins and leaves them, and the messages in them. -/

import Piltover.Foundation.Runs
import Piltover.Messages.Creation
import Piltover.Messages.Deletion

set_option autoImplicit false

namespace Piltover.Chats

open Piltover.Channels (ChatParticipant ChatOrChannel)
open Piltover.Foundation
open Piltover.Foundation.Paging
open Piltover.Messages
open Piltover.Updates (Manager.Row)

structure ChatInvite where
  id : Nat
  chatId : Nat
  userId : Nat
  revoked : Bool
  requestNeeded : Bool
  usageLimit : Option Nat
  usage : Nat
  expiresAt : Option Int
  deriving DecidableEq, Repr

structure ChatInviteRequest where
  userId : Nat
  inviteId : Nat
  deriving DecidableEq, Repr

/-- `participantsCount` is the column of `Chat`, `mayInvite` is `PrivacyRule.has_access_to` for
`CHAT_INVITE`, and `participantsPushed` has the users, the chat and its participants of every
`UpdateChatParticipants`. -/
structure GroupDb extends Db where
  participantsCount : Nat → Int
  invites : Table ChatInvite.id
  inviteRequests : List ChatInviteRequest
  mayInvite : Nat → Nat → Bool
  spamBlocked : List Nat
  groupCreationEnabled : Bool
  basicGroupMemberLimit : Nat
  participantsPushed : List (List Nat × Nat × List Nat)

/-- `InputUser`; `known` is whether the access hash is right. -/
inductive InputUser
  | empty
  | self
  | user (userId : Nat) (known : Bool)
  deriving DecidableEq, Repr

def typeAndIdFromInput (userId : Nat) : InputUser → Option PeerTarget
  | .empty => none
  | .self => some .self
  | .user id known =>
    if id = userId then some .self else if known then some (.user id) else none

def userIdFromInput (userId : Nat) (input : InputUser) : Except Failure Nat :=
  match typeAndIdFromInput userId input with
  | some (.user id) => .ok id
  | _ => .error (.rpc 400 "PEER_ID_INVALID")

/-- `ChatAdminRights.from_tl(CREATOR_RIGHTS)`: all but `ANONYMOUS`. -/
def creatorRights : Nat :=
  [0, 1, 2, 3, 4, 5, 7, 9, 11, 12, 13, 14, 15, 16].foldl (fun rights bit => rights ||| 1 <<< bit) 0

/-- `ChatAdminRights.INVITE_USERS` and `ChatBannedRights.INVITE_USERS`. -/
def adminInviteUsers : Nat := 1 <<< 5

def bannedInviteUsers : Nat := 1 <<< 15

/-- `ChatBase.user_has_permission` of a basic group. -/
def userHasPermission (chat : Chat) (participant : ChatParticipant) (permission : Nat) : Bool :=
  if participant.isAdmin || chat.creatorId == participant.userId then true
  else if participant.bannedRights == 0 then (chat.bannedRights &&& permission) == 0
  else (participant.bannedRights &&& permission) == 0

def adminHasPermission (chat : Chat) (participant : ChatParticipant) (permission : Nat) : Bool :=
  chat.creatorId == participant.userId || (participant.adminRights &&& permission) == permission

namespace GroupDb

variable (db : GroupDb)

section Rows

/-- `ChatParticipant.filter(chat=chat)`. -/
def participantsOf (chatId : Nat) : List ChatParticipant :=
  (db.participants.filter fun p => p.1 == chatId).map Prod.snd

def memberIds (chatId : Nat) : List Nat := (db.participantsOf chatId).map ChatParticipant.userId

/-- `Peer.filter(chat=chat)`. -/
def peersOf (chatId : Nat) : List Peer := db.peers.rows.filter fun p => p.target == .chat chatId

def peerOwners (chatId : Nat) : List Nat := (db.peersOf chatId).map Peer.ownerId

def chatPeer (userId chatId : Nat) : Option Peer :=
  (db.peersOf chatId).find? fun p => p.ownerId == userId

/-- `Peer.get_or_create`. -/
def createPeer (ownerId chatId : Nat) : GroupDb :=
  if ownerId ∈ db.peerOwners chatId then db
  else { db with peers := db.peers.insert ⟨db.peers.nextKey, ownerId, .chat chatId, false⟩ }

/-- A new row of `ChatParticipant`, unless there is one. -/
def createParticipant (chatId : Nat) (p : ChatParticipant) : GroupDb :=
  if p.userId ∈ db.memberIds chatId then db
  else { db with participants := db.participants ++ [(chatId, p)] }

def enroll (chatId : Nat) (db : GroupDb) (p : ChatParticipant) : GroupDb :=
  (db.createPeer p.userId chatId).createParticipant chatId p

/-- `participants_count=F("participants_count") + delta`. -/
def addCount (chatId : Nat) (delta : Int) : GroupDb :=
  { db with participantsCount :=
      Function.update db.participantsCount chatId (db.participantsCount chatId + delta) }

def isRequestTo (chatId : Nat) (request : ChatInviteRequest) : Bool :=
  (db.invites.get request.inviteId).any fun invite => invite.chatId == chatId

/-- `ChatInviteRequest.delete_for_chat`. -/
def deleteRequests (chatId : Nat) (userIds : List Nat) : GroupDb :=
  { db with inviteRequests := db.inviteRequests.filter fun request =>
      !(db.isRequestTo chatId request && userIds.contains request.userId) }

end Rows

section Sending

/-- A part of a handler that works on the messages. -/
def liftEnded (ended : Ended Db) : Ended GroupDb := ⟨{ db with toDb := ended.left }, ended.raised⟩

/-- `upd.update_chat_participants` for all peers of the chat. -/
def updUpdateChatParticipants (chatId : Nat) : Ended GroupDb :=
  let userIds := db.peerOwners chatId
  match Updates.State.addPtsBulk db.server.statePts userIds (userIds.map fun _ => 1) with
  | none => ⟨db, some .other⟩
  | some (statePts, ptss) =>
    let rows : List Manager.Row := (userIds.zip ptss).map fun (userId, pts) =>
      ⟨userId, .other 8, pts, 0, some chatId, [], [], none, none⟩
    ⟨{ db with
      server := { db.server with statePts := statePts, rows := db.server.rows ++ rows }
      participantsPushed := db.participantsPushed ++ [(userIds, chatId, db.memberIds chatId)] },
      none⟩

/-- `_peer_allows_spam_blocked_send` for a basic group. -/
def allowsSpamBlockedSend (chatId userId : Nat) : Bool :=
  (ChatOrChannel.getParticipant (db.participantsOf chatId) userId).any fun p =>
    p.isAdmin || (db.chats.get chatId).any fun chat => chat.creatorId == userId

def checkUserSpamBlocked (chatId userId : Nat) : Except Failure Unit :=
  require (db.bots.contains userId || !db.spamBlocked.contains userId ||
    db.allowsSpamBlockedSend chatId userId) (.rpc 400 "PEER_FLOOD")

/-- The new message of `create_for_peer`, sent by `upd.send_message`. -/
def createAndSend (userId : Nat) (peer : Peer) (chatId : Nat) (draft : Draft) : Ended GroupDb :=
  let created := db.createForPeer peer chatId draft
  db.liftEnded (created.1.updSendMessage userId peer draft created.2)

def sendMessageInternal (userId : Nat) (peer : Peer) (chatId : Nat) (draft : Draft) :
    Ended GroupDb :=
  match if draft.opposite then db.checkUserSpamBlocked chatId userId else .ok () with
  | .error failure => ⟨db, some failure⟩
  | .ok () => db.createAndSend userId peer chatId draft

/-- A service message of a user, `chat_peers[user_id]`. -/
def sendService (userId chatId authorId code : Nat) (opposite : Bool) (date : Int) : Ended GroupDb :=
  match db.chatPeer userId chatId with
  | none => ⟨db, some .other⟩
  | some peer =>
    db.sendMessageInternal userId peer chatId
      ⟨authorId, .service code, date, false, none, opposite⟩

end Sending

section Handlers

structure CreateChat where
  users : List InputUser
  date : Int
  deriving DecidableEq, Repr

def CreateChat.check (userId : Nat) : Except Failure Unit := do
  require db.groupCreationEnabled (.rpc 403 "CHAT_WRITE_FORBIDDEN")
  require (db.bots.contains userId || !db.spamBlocked.contains userId)
    (.rpc 403 "USER_RESTRICTED")

/-- `invited_users_ids`: whom the privacy rules and the peers of the creator leave. -/
def CreateChat.invitedUserIds (request : CreateChat) (userId : Nat) : List Nat :=
  let named := request.users.filterMap fun input =>
    match typeAndIdFromInput userId input with
    | some (.user id) => some id
    | _ => none
  db.peers.rows.filterMap fun p =>
    match p.target with
    | .user id =>
      if p.ownerId = userId ∧ id ∈ named ∧ db.mayInvite userId id = true ∧ p.blocked = false then
        some id
      else none
    | _ => none

/-- The rows of a new chat. -/
def CreateChat.commit (request : CreateChat) (userId : Nat) : GroupDb :=
  let chatId := db.chats.nextKey
  let participants : List ChatParticipant := ⟨userId, 0, creatorRights, false⟩ ::
    (CreateChat.invitedUserIds db request userId).map fun id => ⟨id, 0, 0, false⟩
  let db := { db with chats := db.chats.insert ⟨⟨userId, 0⟩, chatId, false, false⟩ }
  let db := participants.foldl (enroll chatId) db
  { db with
    participantsCount := Function.update db.participantsCount chatId participants.length }

def createChat (userId : Nat) (request : CreateChat) : Ended GroupDb :=
  let chatId := db.chats.nextKey
  match CreateChat.check db userId with
  | .error failure => ⟨db, some failure⟩
  | .ok () =>
    ((CreateChat.commit db request userId).updUpdateChatParticipants chatId).next fun db =>
      db.sendService userId chatId userId 2 true request.date

structure AddChatUser where
  chatId : Nat
  user : InputUser
  fwdLimit : Int
  date : Int
  deriving DecidableEq, Repr

/-- The checks of `add_chat_user`, and the user to add. -/
def AddChatUser.check (request : AddChatUser) (userId : Nat) : Except Failure Nat := do
  let chat ← orRaise ((db.chats.get request.chatId).filter fun chat =>
    (db.peerOwners chat.id).contains userId) (.rpc 400 "CHAT_ID_INVALID")
  let targetId ← userIdFromInput userId request.user
  let participant ← db.getParticipantRaise request.chatId userId
  require (userHasPermission chat participant bannedInviteUsers) (.rpc 403 "CHAT_WRITE_FORBIDDEN")
  require (!(db.peerOwners request.chatId).contains targetId) (.rpc 400 "USER_ALREADY_PARTICIPANT")
  require (decide ((db.participantsOf request.chatId).length ≤ db.basicGroupMemberLimit))
    (.rpc 400 "USERS_TOO_MUCH")
  require (db.mayInvite userId targetId) (.rpc 403 "USER_PRIVACY_RESTRICTED")
  pure targetId

def AddChatUser.commit (chatId targetId : Nat) : GroupDb :=
  ((enroll chatId db ⟨targetId, 0, 0, false⟩).deleteRequests chatId [targetId]).addCount chatId 1

def forwardLast (userId targetId chatId : Nat) (fwdLimit : Int) : Ended GroupDb :=
  if 0 < fwdLimit then
    match db.chatPeer targetId chatId with
    | none => ⟨db, some .other⟩
    | some peer =>
      let messagesToForward := newest MessageRef.id (db.refs.rows.filter fun r =>
        r.peer.ownerId == userId && r.peer.target == .chat chatId &&
          (db.contents.get r.contentId).any fun content => content.type == .regular)
        (min fwdLimit 100).toNat
      let created := db.createRefs (messagesToForward.map fun r => (peer, r.contentId, r.pinned))
      db.liftEnded (created.1.updSendMessages peer created.2)
  else ⟨db, none⟩

def addChatUser (userId : Nat) (request : AddChatUser) : Ended GroupDb :=
  let chatId := request.chatId
  match AddChatUser.check db request userId with
  | .error failure => ⟨db, some failure⟩
  | .ok targetId =>
    -- `ChatParticipant.create` raises for a second row, and the transaction is undone.
    if targetId ∈ db.memberIds chatId then ⟨db, some .other⟩
    else
      (((AddChatUser.commit db chatId targetId).updUpdateChatParticipants chatId).next fun db =>
        db.forwardLast userId targetId chatId request.fwdLimit).next fun db =>
          db.sendService userId chatId userId 5 true request.date

structure DeleteChatUser where
  chatId : Nat
  user : InputUser
  date : Int
  deriving DecidableEq, Repr

/-- `Peer.from_chat_id`, of a chat that is neither deleted nor migrated. -/
def fromChatId (userId chatId : Nat) : Option Peer :=
  if db.chatIsOpen chatId false then db.chatPeer userId chatId else none

/-- The checks of `delete_chat_user`: the caller's peer and the user to remove. -/
def DeleteChatUser.check (request : DeleteChatUser) (userId : Nat) :
    Except Failure (Peer × Nat) := do
  let peer ← orRaise (db.fromChatId userId request.chatId) (.rpc 400 "CHAT_ID_INVALID")
  let targetId ← userIdFromInput userId request.user
  require (((db.participantsOf request.chatId).find? fun p => p.userId == userId).any fun p =>
    p.isAdmin || (db.chats.get request.chatId).any fun chat => chat.creatorId == userId)
    (.rpc 400 "CHAT_ADMIN_REQUIRED")
  require ((db.peerOwners request.chatId).contains targetId) (.rpc 400 "USER_NOT_PARTICIPANT")
  pure (peer, targetId)

/-- The rows without the removed participant; the peer stays. -/
def DeleteChatUser.commit (chatId targetId : Nat) : GroupDb :=
  ({ db with participants := db.participants.filter fun p =>
      !(p.1 == chatId && p.2.userId == targetId) }).addCount chatId (-1)

def deleteChatUser (userId : Nat) (request : DeleteChatUser) : Ended GroupDb :=
  let chatId := request.chatId
  match DeleteChatUser.check db request userId with
  | .error failure => ⟨db, some failure⟩
  | .ok (peer, targetId) =>
    let draft : Draft := ⟨userId, .service 6, request.date, false, none, true⟩
    let created := db.createForPeer peer chatId draft
    let db := DeleteChatUser.commit { db with toDb := created.1 } chatId targetId
    (db.liftEnded (db.updSendMessage userId peer draft created.2)).next fun db =>
      db.updUpdateChatParticipants chatId

/-- `user_join_chat_or_channel` for a basic group, up to its updates. -/
def UserJoin.commit (userId chatId : Nat) : GroupDb :=
  let db := db.createPeer userId chatId
  let db :=
    if userId ∈ db.memberIds chatId then
      { db with participants := db.participants.map fun p =>
          if p.1 = chatId ∧ p.2.userId = userId then (p.1, { p.2 with left := false }) else p }
    else db.createParticipant chatId ⟨userId, 0, 0, false⟩
  db.deleteRequests chatId [userId]

/-- No place is left for one who joins. -/
def isFull (chatId : Nat) : Bool :=
  decide (db.basicGroupMemberLimit < ((db.participantsOf chatId).filter fun p => !p.left).length)

def userJoinChatOrChannel (userId chatId : Nat) (date : Int) : Ended GroupDb :=
  if db.isFull chatId then ⟨db, some (.rpc 400 "USERS_TOO_MUCH")⟩
  else
    ((UserJoin.commit db userId chatId).updUpdateChatParticipants chatId).next fun db =>
      db.sendService userId chatId userId 7 true date

/-- `_get_invite_with_some_checks` and the check of `import_chat_invite`: the invite to use. -/
def ImportChatInvite.check (userId inviteId : Nat) (now : Int) : Except Failure ChatInvite := do
  let invite ← orRaise ((db.invites.get inviteId).filter fun invite => !invite.revoked)
    (.rpc 400 "INVITE_HASH_INVALID")
  require (invite.usageLimit.all fun limit => decide (invite.usage ≤ limit))
    (.rpc 400 "USERS_TOO_MUCH")
  let chat ← orRaise (db.chats.get invite.chatId) .other
  require ((invite.expiresAt.all fun expires => decide (now ≤ expires)) && !chat.migrated)
    (.rpc 400 "INVITE_HASH_EXPIRED")
  require (!(db.participantsOf invite.chatId).any fun p => p.userId == userId && !p.left)
    (.rpc 400 "USER_ALREADY_PARTICIPANT")
  pure invite

def importChatInvite (userId inviteId : Nat) (now : Int) : Ended GroupDb :=
  match ImportChatInvite.check db userId inviteId now with
  | .error failure => ⟨db, some failure⟩
  | .ok invite =>
    if invite.requestNeeded then
      let requested := db.inviteRequests.any fun request =>
        db.isRequestTo invite.chatId request && request.userId == userId
      ⟨if requested then db
        else { db with inviteRequests := db.inviteRequests ++ [⟨userId, invite.id⟩] },
        some (.rpc 400 "INVITE_REQUEST_SENT")⟩
    else db.userJoinChatOrChannel userId invite.chatId now

inductive Requester
  | user (userId : Nat)
  | all (inviteId : Option Nat)
  deriving DecidableEq, Repr

namespace Requester

def covers : Requester → ChatInviteRequest → Bool
  | .user userId, request => request.userId == userId
  | .all none, _ => true
  | .all (some inviteId), request => request.inviteId == inviteId

def fetches : Requester → Bool
  | .user _ => true
  | .all _ => false

def pick : Requester → List ChatInviteRequest → List ChatInviteRequest
  | .user _, found => found.take 1
  | .all _, found => found

end Requester

structure HideJoinRequest where
  chatId : Nat
  requester : Requester
  approved : Bool
  date : Int
  deriving DecidableEq, Repr

def HideJoinRequest.linkFits (request : HideJoinRequest) : Bool :=
  match request.requester with
  | .all (some inviteId) => (db.invites.get inviteId).any fun invite => invite.chatId == request.chatId
  | _ => true

/-- The checks of `hide_chat_join_request` and `hide_all_chat_join_requests`: the requests. -/
def HideJoinRequest.check (request : HideJoinRequest) (userId : Nat) :
    Except Failure (List ChatInviteRequest) := do
  let _ ← orRaise (db.fromChatId userId request.chatId) (.rpc 400 "PEER_ID_INVALID")
  let chat ← orRaise (db.chats.get request.chatId) .other
  require ((ChatOrChannel.getParticipant (db.participantsOf request.chatId) userId).any fun p =>
    adminHasPermission chat p adminInviteUsers) (.rpc 400 "CHAT_ADMIN_REQUIRED")
  require (HideJoinRequest.linkFits db request) (.rpc 400 "INVITE_HASH_EXPIRED")
  let found := request.requester.pick (db.inviteRequests.filter fun other =>
    db.isRequestTo request.chatId other && request.requester.covers other)
  require (!found.isEmpty) (.rpc 400 "HIDE_REQUESTER_MISSING")
  pure found

/-- The rows of the users whose requests are approved. -/
def AddRequested.commit (chatId : Nat) (requested : List Nat) : GroupDb :=
  ((requested.map fun id => (⟨id, 0, 0, false⟩ : ChatParticipant)).foldl (enroll chatId)
    db).deleteRequests chatId requested

/-- The two messages about each user who was let in. -/
def sendJoined (userId chatId : Nat) (date : Int) (db : GroupDb) : List Nat → Ended GroupDb
  | [] => ⟨db, none⟩
  | requestedId :: rest =>
    ((db.sendService userId chatId requestedId 7 true date).next fun db =>
      db.sendService requestedId chatId requestedId 8 false date).next fun db =>
        sendJoined userId chatId date db rest

/-- No place is left for so many. -/
def isFullFor (chatId few : Nat) : Bool :=
  decide (db.basicGroupMemberLimit < (db.participantsOf chatId).length + few)

/-- `add_requested_users_to_chat`; `fetched` is whether the requests come with their users. -/
def addRequestedUsersToChat (userId chatId : Nat) (requested : List Nat) (fetched : Bool)
    (date : Int) : Ended GroupDb :=
  if requested = [] then ⟨db, none⟩
  else if db.isFullFor chatId requested.length then ⟨db, some (.rpc 400 "USERS_TOO_MUCH")⟩
  -- `request.user.id` of a relation that was not fetched raises.
  else if !fetched then ⟨db, some .other⟩
  else
    ((AddRequested.commit db chatId requested).updUpdateChatParticipants chatId).next fun db =>
      sendJoined userId chatId date db requested

def hideJoinRequest (userId : Nat) (request : HideJoinRequest) : Ended GroupDb :=
  match HideJoinRequest.check db request userId with
  | .error failure => ⟨db, some failure⟩
  | .ok found =>
    if request.approved then
      db.addRequestedUsersToChat userId request.chatId (found.map ChatInviteRequest.userId)
        request.requester.fetches request.date
    else
      ⟨{ db with inviteRequests := db.inviteRequests.filter fun other =>
          !(db.isRequestTo request.chatId other && request.requester.covers other) }, none⟩

/-- `delete_history`; a request that raises has changed nothing. -/
def deleteHistory (userId : Nat) (request : DeleteHistory) : Ended GroupDb :=
  match Messages.deleteHistory db.toDb userId request with
  | .error failure => ⟨db, some failure⟩
  | .ok (after, _) => ⟨{ db with toDb := after }, none⟩

structure SendMessage where
  chatId : Nat
  randomId : Int
  date : Int
  deriving DecidableEq, Repr

/-- The checks of `send_message` for a basic group: the peer of the sender. -/
def SendMessage.check (request : SendMessage) (userId : Nat) : Except Failure Peer := do
  require (request.randomId != 0) (.rpc 400 "RANDOM_ID_EMPTY")
  let peer ← orRaise (db.fromChatId userId request.chatId) (.rpc 400 "PEER_ID_INVALID")
  let chat ← orRaise (db.chats.get request.chatId) .other
  let participant := ChatOrChannel.getParticipant (db.participantsOf request.chatId) userId
  require ((ChatOrChannel.chat chat.toChatBase).canSendPlain participant)
    (.rpc 403 "CHAT_SEND_PLAIN_FORBIDDEN")
  pure peer

def sendMessage (userId : Nat) (request : SendMessage) : Ended GroupDb :=
  match SendMessage.check db request userId with
  | .error failure => ⟨db, some failure⟩
  | .ok peer =>
    db.sendMessageInternal userId peer request.chatId
      ⟨userId, .regular, request.date, false, some request.randomId, true⟩

end Handlers

end GroupDb

/-- The requests of the clients, each with the user who makes it. -/
inductive Event
  | createChat (userId : Nat) (request : GroupDb.CreateChat)
  | addChatUser (userId : Nat) (request : GroupDb.AddChatUser)
  | deleteChatUser (userId : Nat) (request : GroupDb.DeleteChatUser)
  | importChatInvite (userId inviteId : Nat) (now : Int)
  | hideJoinRequest (userId : Nat) (request : GroupDb.HideJoinRequest)
  | deleteHistory (userId : Nat) (request : DeleteHistory)
  | sendMessage (userId : Nat) (request : GroupDb.SendMessage)

namespace GroupDb

/-- What the request of a client leaves behind and raises. -/
def handle (db : GroupDb) : Event → Ended GroupDb
  | .createChat userId request => db.createChat userId request
  | .addChatUser userId request => db.addChatUser userId request
  | .deleteChatUser userId request => db.deleteChatUser userId request
  | .importChatInvite userId inviteId now => db.importChatInvite userId inviteId now
  | .hideJoinRequest userId request => db.hideJoinRequest userId request
  | .deleteHistory userId request => db.deleteHistory userId request
  | .sendMessage userId request => db.sendMessage userId request

/-- Any request can come at any time; one that raises leaves what it has done. -/
def step (db : GroupDb) (e : Event) : Option GroupDb := some (db.handle e).left

end GroupDb

end Piltover.Chats
