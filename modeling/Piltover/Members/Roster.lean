/- source: piltover/app/handlers/channels.py, piltover/app/handlers/messages/invites.py,
     piltover/db/models/channel.py, piltover/db/models/chat_participant.py,
     piltover/db/models/chat_invite.py, piltover/db/models/message_ref.py
   digest: Who is in a channel: joining, inviting and approving, as checks and commits. -/

import Piltover.Channels.Rights
import Piltover.Failure
import Piltover.Foundation.Table

set_option autoImplicit false

namespace Piltover.Members

open Piltover.Channels (UserId AccessHash ChatOrChannel)
open Piltover.Channels.ChatBannedRights (viewMessages)
open Piltover.Foundation

section Rights

def bannedInviteUsers : Nat := 1 <<< 15

def adminBanUsers : Nat := 1 <<< 4
def adminInviteUsers : Nat := 1 <<< 5
def adminAddAdmins : Nat := 1 <<< 9

def creatorRights : Nat :=
  [0, 1, 2, 3, 4, 5, 7, 9, 11, 12, 13, 14, 15, 16].foldl (fun rights bit => rights ||| 1 <<< bit) 0

end Rights

structure AppConfig where
  channelsPerUserLimit : Nat
  superGroupMemberLimit : Nat
  channelAdminLimit : Nat

structure ChatParticipant extends Channels.ChatParticipant where
  inviterId : UserId
  invite : Option Nat
  minMessageId : Option Nat
  adminRank : String
  promotedById : UserId
  deriving DecidableEq, Repr

/-- The defaults of a row. -/
def ChatParticipant.ofUser (userId : UserId) : ChatParticipant :=
  ⟨⟨userId, 0, 0, false⟩, 0, none, none, "", 0⟩

/-- What joining writes to a row. -/
def ChatParticipant.joined (inviterId : UserId) (invite minMessageId : Option Nat)
    (p : ChatParticipant) : ChatParticipant :=
  { p with inviterId := inviterId, invite := invite, minMessageId := minMessageId, left := false }

structure Channel extends Channels.Channel where
  minAvailableId : Option Nat
  joinRequest : Bool
  adminsCount : Nat
  deriving DecidableEq, Repr

structure ChatInvite where
  id : Nat
  nonce : String
  userId : UserId
  revoked : Bool
  expiresAt : Option Int
  requestNeeded : Bool
  usageLimit : Option Int
  usage : Int
  deriving DecidableEq, Repr

structure ChatInviteRequest where
  userId : UserId
  inviteId : Nat
  deriving DecidableEq, Repr

structure Dialog where
  ownerId : UserId
  visible : Bool
  deriving DecidableEq, Repr

/-- A channel, its rows, and the users that get its updates. -/
structure Roster where
  channel : Channel
  participants : Table fun p : ChatParticipant => p.userId
  invites : Table ChatInvite.id
  requests : List ChatInviteRequest
  dialogs : Table Dialog.ownerId
  subscribed : List UserId

/-- What a request finds outside of these rows. `channelsCount` is in how many channels a user is,
`mayInvite` is `PrivacyRule.has_access_to` for `CHAT_INVITE`, `linked` is the channel that has this
one for its discussion, with its participants, and `password` is the check of the password. -/
structure Surroundings where
  now : Int
  hasUsername : Bool
  lastChannelMessageId : Option Nat
  channelsCount : UserId → Nat
  userExists : UserId → Bool
  mayInvite : UserId → UserId → Bool
  hasPeer : UserId → UserId → Bool
  linked : Option (Channels.Channel × List Channels.ChatParticipant)
  password : UserId → Except Failure Unit

section Lookups

def chatAdminRequired : Failure := .rpc 400 "CHAT_ADMIN_REQUIRED"
def channelPrivate : Failure := .rpc 406 "CHANNEL_PRIVATE"

def Channel.adminHasPermission (c : Channel) (p : ChatParticipant) (permission : Nat) : Bool :=
  c.creatorId == p.userId || (p.adminRights &&& permission) == permission

def Channel.userHasPermission (c : Channel) (p : ChatParticipant) (permission : Nat) : Bool :=
  if c.channel && !p.isAdmin && c.creatorId != p.userId then false
  else if p.isAdmin || c.creatorId == p.userId then true
  else if p.bannedRights == 0 then (c.bannedRights &&& permission) == 0
  else (p.bannedRights &&& permission) == 0

namespace Roster

variable (s : Roster) (userId : UserId)

def present : Bool := (s.participants.get userId).any fun p => !p.left

def getParticipant : Option ChatParticipant := (s.participants.get userId).filter fun p => !p.left

def getParticipantRaise : Except Failure ChatParticipant :=
  orRaise (s.getParticipant userId) (.rpc 400 "CHAT_RESTRICTED")

def presentCount : Nat := (s.participants.rows.filter fun p => !p.left).length

def getFromInput (hash : AccessHash) (failure : Failure) : Except Failure Unit :=
  require (!s.channel.deleted &&
    hash.reaches ((s.participants.get userId).map ChatParticipant.toChatParticipant)) failure

def prehistoryApplies (env : Surroundings) : Bool :=
  s.channel.supergroup && !s.channel.channel && !s.channel.isDiscussion && !env.hasUsername

def minMessageIdForNewParticipant (env : Surroundings) : Option Nat :=
  if !s.prehistoryApplies env then none
  else if s.channel.hiddenPrehistory then env.lastChannelMessageId.map (· + 1)
  else s.channel.minAvailableId

end Roster

end Lookups

section Joining

namespace Roster

variable (config : AppConfig) (env : Surroundings) (s : Roster)

/-- `Dialog.create_or_unhide` for each of the users. -/
def unhide (dialogs : Table Dialog.ownerId) (userIds : List UserId) : Table Dialog.ownerId :=
  userIds.foldl (fun dialogs userId => dialogs.updateOrCreate ⟨userId, true⟩
    (fun d => { d with visible := true }) fun _ => rfl) dialogs

/-- `ChatInviteRequest.delete_for_channel` for the users. -/
def withoutRequests (userIds : List UserId) : List ChatInviteRequest :=
  s.requests.filter fun request => !userIds.contains request.userId

def joinInviterId (userId : UserId) (fromInvite : Option ChatInvite) : UserId :=
  match fromInvite with
  | some invite => invite.userId
  | none => if s.channel.channel then userId else 0

/-- The limits of `user_join_chat_or_channel`. -/
def UserJoin.check (userId : UserId) : Except Failure Unit := do
  require (decide (env.channelsCount userId ≤ config.channelsPerUserLimit))
    (.rpc 400 "CHANNELS_TOO_MUCH")
  require (decide (s.presentCount ≤ config.superGroupMemberLimit)) (.rpc 400 "USERS_TOO_MUCH")

/-- What `user_join_chat_or_channel` writes. -/
def UserJoin.commit (userId : UserId) (fromInvite : Option ChatInvite) : Roster :=
  let join := ChatParticipant.joined (s.joinInviterId userId fromInvite)
    (fromInvite.map ChatInvite.id) (s.minMessageIdForNewParticipant env)
  { s with
    participants := s.participants.updateOrCreate (join (.ofUser userId)) join fun _ => rfl
    requests := s.withoutRequests [userId]
    dialogs := unhide s.dialogs [userId]
    subscribed := s.subscribed ++ [userId] }

def userJoinChatOrChannel (userId : UserId) (fromInvite : Option ChatInvite) : Ended Roster :=
  match UserJoin.check config env s userId with
  | .error failure => ⟨s, some failure⟩
  | .ok () => ⟨UserJoin.commit env s userId fromInvite, none⟩

/-- Who may join without an invite: by the username, or from the linked channel. -/
def JoinChannel.check (userId : UserId) (hash : AccessHash) : Except Failure Unit := do
  s.getFromInput userId hash channelPrivate
  require ((s.participants.get userId).all fun p => p.left) (.rpc 400 "USER_ALREADY_PARTICIPANT")
  require ((s.participants.get userId).all fun p => p.bannedRights &&& viewMessages == 0)
    channelPrivate
  if env.hasUsername then .ok ()
  else do
    require s.channel.isDiscussion channelPrivate
    let linked ← orRaise env.linked channelPrivate
    require ((ChatOrChannel.channel linked.1).canViewMessages
      (linked.2.find? fun p => p.userId == userId)) channelPrivate

def joinChannel (userId : UserId) (hash : AccessHash) : Ended Roster :=
  match JoinChannel.check env s userId hash with
  | .error failure => ⟨s, some failure⟩
  | .ok () => userJoinChatOrChannel config env s userId none

inductive InviteHash
  | empty
  | malformed
  | names (id : Nat) (nonce : String)
  deriving DecidableEq, Repr

/-- `ChatInvite.query_from_link_hash`. -/
def inviteFromLinkHash (hash : InviteHash) : Option ChatInvite :=
  match hash with
  | .empty | .malformed => none
  | .names id nonce => (s.invites.get id).filter fun invite => invite.nonce == nonce

/-- `_get_invite_with_some_checks` and the check of `import_chat_invite`. -/
def ImportChatInvite.check (userId : UserId) (hash : InviteHash) : Except Failure ChatInvite := do
  require (hash != .empty) (.rpc 400 "INVITE_HASH_EMPTY")
  let invite ← orRaise ((s.inviteFromLinkHash hash).filter fun invite => !invite.revoked)
    (.rpc 400 "INVITE_HASH_INVALID")
  require (invite.usageLimit.all fun limit => decide (invite.usage ≤ limit))
    (.rpc 400 "USERS_TOO_MUCH")
  require (invite.expiresAt.all fun expiresAt => decide (env.now ≤ expiresAt))
    (.rpc 400 "INVITE_HASH_EXPIRED")
  require ((s.participants.get userId).all fun p => p.bannedRights &&& viewMessages == 0)
    (.rpc 400 "INVITE_HASH_EXPIRED")
  require (!s.present userId) (.rpc 400 "USER_ALREADY_PARTICIPANT")
  .ok invite

def importChatInvite (userId : UserId) (hash : InviteHash) : Ended Roster :=
  match ImportChatInvite.check env s userId hash with
  | .error failure => ⟨s, some failure⟩
  | .ok invite =>
    if invite.requestNeeded || s.channel.joinRequest then
      let requested := s.requests.any fun request => request.userId == userId
      ⟨if requested then s else { s with requests := s.requests ++ [⟨userId, invite.id⟩] },
        some (.rpc 400 "INVITE_REQUEST_SENT")⟩
    else userJoinChatOrChannel config env s userId (some invite)

end Roster

end Joining

section Approving

namespace Roster

variable (config : AppConfig) (s : Roster)

/-- The limit of `add_requested_users_to_chat` counts also those who have left; `fetched` is whether
the requests come with their users: `request.user.id` of a relation that was not fetched raises. -/
def AddRequested.check (requests : List ChatInviteRequest) (fetched : Bool) :
    Except Failure Unit := do
  require (decide (s.participants.rows.length + requests.length ≤ config.superGroupMemberLimit))
    (.rpc 400 "USERS_TOO_MUCH")
  require fetched .other

/-- What `add_requested_users_to_chat` writes. -/
def AddRequested.commit (requests : List ChatInviteRequest) : Roster :=
  let requestedUsers := requests.map ChatInviteRequest.userId
  { s with
    participants := s.participants.insertMany (requests.map fun request =>
      { ChatParticipant.ofUser request.userId with
        inviterId := ((s.invites.get request.inviteId).map ChatInvite.userId).getD 0
        invite := some request.inviteId })
    requests := s.withoutRequests requestedUsers
    dialogs := if s.channel.supergroup && !s.channel.channel then unhide s.dialogs requestedUsers
      else s.dialogs
    subscribed := s.subscribed ++ requestedUsers }

def addRequestedUsersToChat (requests : List ChatInviteRequest) (fetched : Bool) : Ended Roster :=
  if requests = [] then ⟨s, none⟩
  else
    match AddRequested.check config s requests fetched with
    | .error failure => ⟨s, some failure⟩
    | .ok () => ⟨AddRequested.commit s requests, none⟩

def mayApprove (userId : UserId) (hash : AccessHash) : Except Failure Unit := do
  s.getFromInput userId hash (.rpc 400 "PEER_ID_INVALID")
  require ((s.getParticipant userId).any fun p =>
    s.channel.adminHasPermission p adminInviteUsers) chatAdminRequired

/-- The request of the user, `none` when what is given is not a user. -/
def HideChatJoinRequest.check (userId : UserId) (hash : AccessHash) (requester : Option UserId) :
    Except Failure ChatInviteRequest := do
  s.mayApprove userId hash
  let target ← orRaise requester (.rpc 400 "PEER_ID_INVALID")
  orRaise (s.requests.find? fun request => request.userId == target)
    (.rpc 400 "HIDE_REQUESTER_MISSING")

def hideChatJoinRequest (userId : UserId) (hash : AccessHash) (requester : Option UserId)
    (approved : Bool) : Ended Roster :=
  match HideChatJoinRequest.check s userId hash requester with
  | .error failure => ⟨s, some failure⟩
  | .ok request =>
    if approved then addRequestedUsersToChat config s [request] true
    else ⟨{ s with requests := s.withoutRequests [request.userId] }, none⟩

def requestsOf (link : Option InviteHash) : Except Failure (List ChatInviteRequest) :=
  match link with
  | none => .ok s.requests
  | some hash =>
    match s.inviteFromLinkHash hash with
    | none => .error (.rpc 400 "INVITE_HASH_EXPIRED")
    | some invite => .ok (s.requests.filter fun request => request.inviteId == invite.id)

def HideAllChatJoinRequests.check (userId : UserId) (hash : AccessHash)
    (link : Option InviteHash) : Except Failure (List ChatInviteRequest) := do
  s.mayApprove userId hash
  let requests ← s.requestsOf link
  require (!requests.isEmpty) (.rpc 400 "HIDE_REQUESTER_MISSING")
  .ok requests

def hideAllChatJoinRequests (userId : UserId) (hash : AccessHash) (link : Option InviteHash)
    (approved : Bool) : Ended Roster :=
  match HideAllChatJoinRequests.check s userId hash link with
  | .error failure => ⟨s, some failure⟩
  | .ok requests =>
    if approved then addRequestedUsersToChat config s requests false
    else ⟨{ s with requests := s.requests.filter fun request => !requests.contains request }, none⟩

end Roster

end Approving

section Inviting

/-- A user as a request names it; `valid` is whether the access hash is right. -/
inductive InputUser
  | empty
  | self
  | user (id : UserId) (valid : Bool)
  deriving DecidableEq, Repr

/-- `Peer.type_and_id_from_input_raise`, where only another user will do. -/
def otherUser (userId : UserId) (failure : Failure) (input : InputUser) : Except Failure UserId :=
  match input with
  | .empty | .self => .error failure
  | .user id valid => if id == userId || !valid then .error failure else .ok id

namespace Roster

variable (config : AppConfig) (env : Surroundings) (s : Roster)

/-- Whom of the named users the invitation adds, after those in `added`. -/
def invitees (userId : UserId) : List UserId → List UserId → Except Failure (List UserId)
  | [], added => .ok added
  | u :: rest, added =>
    if s.present u || !env.mayInvite userId u ||
        decide (config.channelsPerUserLimit ≤ env.channelsCount u) then
      invitees userId rest added
    else if config.superGroupMemberLimit ≤ s.presentCount + added.length then
      .error (.rpc 400 "USERS_TOO_MUCH")
    else invitees userId rest (added ++ [u])

/-- The checks of `invite_to_channel`: whom it adds. -/
def InviteToChannel.check (userId : UserId) (hash : AccessHash) (users : List InputUser) :
    Except Failure (List UserId) := do
  require (hash != .invalid) (.rpc 400 "CHANNEL_PRIVATE")
  let participant ← s.getParticipantRaise userId
  require (s.channel.userHasPermission participant bannedInviteUsers ||
    s.channel.adminHasPermission participant adminInviteUsers) (.rpc 403 "CHAT_ADMIN_REQUIRED")
  let invalid := Failure.rpc 400 "USER_ID_INVALID"
  let userIds ← (users.take 100).mapM (otherUser userId invalid)
  require (!userIds.isEmpty && userIds.all env.userExists) invalid
  invitees config env s userId userIds []

/-- What `invite_to_channel` writes. -/
def InviteToChannel.commit (userId : UserId) (added : List UserId) : Roster :=
  let minMessageId := s.minMessageIdForNewParticipant env
  let known := added.filter fun u => (s.participants.get u).isSome
  let fresh := added.filter fun u => (s.participants.get u).isNone
  { s with
    participants := (s.participants.insertMany (fresh.map fun u =>
        { ChatParticipant.ofUser u with
          inviterId := userId, minMessageId := minMessageId })).modify
      (fun p => known.contains p.userId)
      (fun p => { p with left := false, inviterId := userId, minMessageId := minMessageId })
      fun _ => rfl
    requests := s.withoutRequests added
    dialogs := unhide s.dialogs added
    subscribed := s.subscribed ++ added }

def inviteToChannel (userId : UserId) (hash : AccessHash) (users : List InputUser) : Ended Roster :=
  match InviteToChannel.check config env s userId hash users with
  | .error failure => ⟨s, some failure⟩
  | .ok added => ⟨InviteToChannel.commit env s userId added, none⟩

end Roster

end Inviting

end Piltover.Members
