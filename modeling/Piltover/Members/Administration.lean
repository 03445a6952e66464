/- source: piltover/app/handlers/channels.py, piltover/app/handlers/messages/invites.py,
     piltover/db/models/channel.py
   digest: Making, leaving and managing a channel, and the requests as steps of a run. -/

import Piltover.Members.Roster

set_option autoImplicit false

namespace Piltover.Members

open Piltover.Channels (UserId AccessHash)
open Piltover.Channels.ChatBannedRights (viewMessages)
open Piltover.Foundation

namespace Roster

/-- `_create_channel` and `_add_user_to_channel` for the creator. -/
def createChannel (creatorId id : Nat) (isChannel isSupergroup : Bool) : Roster where
  channel :=
    { creatorId := creatorId, bannedRights := 0, id := id, channel := isChannel
      supergroup := isSupergroup, nojoinAllowView := false, hiddenPrehistory := false
      joinToSend := true, discussionId := none, isDiscussion := false, slowmodeSeconds := none
      deleted := false, version := 1, minAvailableId := none, joinRequest := false
      adminsCount := 1 }
  participants := Table.empty.insert ⟨⟨creatorId, 0, creatorRights, false⟩, 0, none, none, "", 0⟩
  invites := .empty
  requests := []
  dialogs := Table.empty.insert ⟨creatorId, true⟩
  subscribed := [creatorId]

variable (config : AppConfig) (env : Surroundings) (s : Roster) (userId : UserId)
  (hash : AccessHash)

def syncAdminsCount : Roster :=
  { s with channel.adminsCount := (s.participants.rows.filter fun p => p.isAdmin).length }

section Leaving

def LeaveChannel.check : Except Failure Unit := do
  s.getFromInput userId hash channelPrivate
  require (s.channel.creatorId != userId) (.rpc 400 "USER_CREATOR")
  require (s.present userId) (.rpc 400 "USER_NOT_PARTICIPANT")

def LeaveChannel.commit : Roster :=
  { s with
    participants := s.participants.modify (fun p => p.userId == userId)
      (fun p => { p with left := true }) fun _ => rfl
    invites := s.invites.modify (fun invite => invite.userId == userId)
      (fun invite => { invite with revoked := true }) fun _ => rfl
    dialogs := s.dialogs.updateOrCreate ⟨userId, false⟩ (fun d => { d with visible := false })
      fun _ => rfl }

def leaveChannel : Ended Roster :=
  match LeaveChannel.check s userId hash with
  | .error failure => ⟨s, some failure⟩
  | .ok () => ⟨LeaveChannel.commit s userId, none⟩

end Leaving

section Banning

/-- The user whose rights are to be written, if they are new. -/
def EditBanned.check (target : InputUser) (newBannedRights : Nat) :
    Except Failure (Option UserId) := do
  s.getFromInput userId hash channelPrivate
  let participant ← s.getParticipantRaise userId
  require (s.channel.adminHasPermission participant adminBanUsers) (.rpc 403 "RIGHT_FORBIDDEN")
  let targetId ← otherUser userId (.rpc 400 "PARTICIPANT_ID_INVALID") target
  match s.participants.get targetId with
  | none => .ok (some targetId)
  | some p =>
    if p.bannedRights = newBannedRights then .ok none
    else do
      require (!p.isAdmin || userId == s.channel.creatorId) chatAdminRequired
      .ok (some targetId)

def EditBanned.commit (targetId : UserId) (newBannedRights : Nat) : Roster :=
  let banned := newBannedRights &&& viewMessages != 0
  { s with
    participants := s.participants.updateOrCreate
      ⟨⟨targetId, newBannedRights, 0, true⟩, 0, none, none, "", 0⟩
      (fun p => { p with bannedRights := newBannedRights, left := p.left || banned }) fun _ => rfl
    requests := if banned then s.withoutRequests [targetId] else s.requests }

def editBanned (target : InputUser) (newBannedRights : Nat) : Ended Roster :=
  match EditBanned.check s userId hash target newBannedRights with
  | .error failure => ⟨s, some failure⟩
  | .ok none => ⟨s, none⟩
  | .ok (some targetId) => ⟨EditBanned.commit s targetId newBannedRights, none⟩

end Banning

section Promoting

/-- `Peer.query_from_input_user_or_raise`: the user needs to have a peer for the other one. -/
def editAdminTarget (target : InputUser) : Except Failure UserId :=
  match target with
  | .empty => .error (.rpc 400 "PARTICIPANT_ID_INVALID")
  | .self => .ok userId
  | .user id valid =>
    if id = userId then .ok userId
    else if !valid then .error (.rpc 400 "PEER_ID_INVALID")
    else if env.hasPeer userId id then .ok id
    else .error .other

def EditAdmin.newRights (targetId : UserId) (adminRights : Nat) : Nat :=
  if targetId = s.channel.creatorId then adminRights ||| creatorRights else adminRights

/-- The user and the rights that are to be written, if they or the rank are new. -/
def EditAdmin.check (target : InputUser) (adminRights : Nat) (rank : String) :
    Except Failure (Option (UserId × Nat)) := do
  s.getFromInput userId hash channelPrivate
  let creatorId := s.channel.creatorId
  let participant ← s.getParticipantRaise userId
  require (s.channel.adminHasPermission participant adminAddAdmins) (.rpc 403 "RIGHT_FORBIDDEN")
  let targetId ← editAdminTarget env userId target
  require (targetId != creatorId || targetId == userId) (.rpc 400 "USER_CREATOR")
  let p ← orRaise (s.getParticipant targetId) (.rpc 400 "PARTICIPANT_ID_INVALID")
  require (!(decide (0 < adminRights) && !p.isAdmin &&
    decide (config.channelAdminLimit ≤ s.channel.adminsCount))) (.rpc 400 "USERS_TOO_MUCH")
  let newAdminRights := EditAdmin.newRights s targetId adminRights
  -- Nobody but the creator gives a right without having it.
  require (userId == creatorId || newAdminRights ||| participant.adminRights ==
    participant.adminRights) (.rpc 403 "RIGHT_FORBIDDEN")
  -- A new rank that is too long for its column is not saved, nor anything else then.
  require (p.adminRank == rank || decide (rank.length ≤ 24)) .other
  .ok (if p.adminRights = newAdminRights ∧ p.adminRank = rank then none
    else some (targetId, newAdminRights))

def EditAdmin.commit (targetId : UserId) (newAdminRights : Nat) (rank : String) : Roster :=
  syncAdminsCount
    { s with
      participants := s.participants.modify (fun p => p.userId == targetId)
        (fun p => { p with
          adminRank := rank, adminRights := newAdminRights
          promotedById := if p.promotedById = 0 then userId else p.promotedById }) fun _ => rfl }

def editAdmin (target : InputUser) (adminRights : Nat) (rank : String) : Ended Roster :=
  match EditAdmin.check config env s userId hash target adminRights rank with
  | .error failure => ⟨s, some failure⟩
  | .ok none => ⟨s, none⟩
  | .ok (some (targetId, newAdminRights)) =>
    ⟨EditAdmin.commit s userId targetId newAdminRights rank, none⟩

def editCreatorTarget (target : InputUser) : Except Failure UserId :=
  match target with
  | .empty => .error (.rpc 400 "PEER_ID_INVALID")
  | .self => .error (.rpc 400 "USER_ID_INVALID")
  | .user id valid =>
    if id = userId then .error (.rpc 400 "USER_ID_INVALID")
    else if valid then .ok id
    else .error (.rpc 400 "PEER_ID_INVALID")

/-- The new creator. -/
def EditCreator.check (target : InputUser) : Except Failure UserId := do
  s.getFromInput userId hash channelPrivate
  require (s.channel.creatorId == userId) chatAdminRequired
  require (s.present userId) chatAdminRequired
  env.password userId
  let targetId ← editCreatorTarget userId target
  require (s.present targetId) (.rpc 400 "USER_ID_INVALID")
  .ok targetId

def EditCreator.commit (targetId : UserId) : Roster :=
  syncAdminsCount
    { s with
      channel.creatorId := targetId
      channel.version := s.channel.version + 1
      participants := s.participants.modify (fun p => p.userId == userId || p.userId == targetId)
        (fun p => { p with adminRights := if p.userId = targetId then creatorRights else 0 })
        fun _ => rfl }

def editCreator (target : InputUser) : Ended Roster :=
  match EditCreator.check env s userId hash target with
  | .error failure => ⟨s, some failure⟩
  | .ok targetId => ⟨EditCreator.commit s userId targetId, none⟩

end Promoting

section Links

/-- The arguments of `export_chat_invite`; the nonce is random. -/
structure ExportChatInvite where
  legacyRevokePermanent : Bool
  requestNeeded : Bool
  expireDate : Option Int
  usageLimit : Option Int
  nonce : String
  deriving DecidableEq, Repr

def ExportChatInvite.commit (request : ExportChatInvite) : Roster :=
  let invites :=
    if request.legacyRevokePermanent then
      s.invites.modify (fun invite => invite.userId == userId && !invite.revoked)
        (fun invite => { invite with revoked := true }) fun _ => rfl
    else s.invites
  { s with
    invites := invites.insert ⟨invites.nextKey, request.nonce, userId, false, request.expireDate,
      request.requestNeeded, if request.requestNeeded then none else request.usageLimit, 0⟩ }

def exportChatInvite (request : ExportChatInvite) : Ended Roster :=
  match s.mayApprove userId hash with
  | .error failure => ⟨s, some failure⟩
  | .ok () => ⟨ExportChatInvite.commit s userId request, none⟩

def editExportedChatInvite (link : InviteHash) (revoked : Bool) : Ended Roster :=
  match s.mayApprove userId hash with
  | .error failure => ⟨s, some failure⟩
  | .ok () =>
    match (s.inviteFromLinkHash link).filter fun invite => !invite.revoked with
    | none => ⟨s, some (.rpc 400 "INVITE_HASH_EXPIRED")⟩
    | some invite =>
      let change := fun other : ChatInvite => { other with revoked := other.revoked || revoked }
      let invites := s.invites.modify (fun other => other.id == invite.id) change fun _ => rfl
      ⟨{ s with invites := invites }, none⟩

end Links

end Roster

section Steps

/-- The requests about who is in a channel and what they may do. -/
inductive Request
  | joinChannel (hash : AccessHash)
  | leaveChannel (hash : AccessHash)
  | importChatInvite (hash : Roster.InviteHash)
  | hideChatJoinRequest (hash : AccessHash) (requester : Option UserId) (approved : Bool)
  | hideAllChatJoinRequests (hash : AccessHash) (link : Option Roster.InviteHash) (approved : Bool)
  | inviteToChannel (hash : AccessHash) (users : List InputUser)
  | editBanned (hash : AccessHash) (target : InputUser) (bannedRights : Nat)
  | editAdmin (hash : AccessHash) (target : InputUser) (adminRights : Nat) (rank : String)
  | editCreator (hash : AccessHash) (target : InputUser)
  | exportChatInvite (hash : AccessHash) (request : Roster.ExportChatInvite)
  | editExportedChatInvite (hash : AccessHash) (link : Roster.InviteHash) (revoked : Bool)

/-- A request of a user, and what it finds. -/
structure Command where
  userId : UserId
  request : Request
  env : Surroundings

def Command.handle (config : AppConfig) (s : Roster) (c : Command) : Ended Roster :=
  match c.request with
  | .joinChannel hash => s.joinChannel config c.env c.userId hash
  | .leaveChannel hash => s.leaveChannel c.userId hash
  | .importChatInvite hash => s.importChatInvite config c.env c.userId hash
  | .hideChatJoinRequest hash requester approved =>
    s.hideChatJoinRequest config c.userId hash requester approved
  | .hideAllChatJoinRequests hash link approved =>
    s.hideAllChatJoinRequests config c.userId hash link approved
  | .inviteToChannel hash users => s.inviteToChannel config c.env c.userId hash users
  | .editBanned hash target bannedRights => s.editBanned c.userId hash target bannedRights
  | .editAdmin hash target adminRights rank =>
    s.editAdmin config c.env c.userId hash target adminRights rank
  | .editCreator hash target => s.editCreator c.env c.userId hash target
  | .exportChatInvite hash request => s.exportChatInvite c.userId hash request
  | .editExportedChatInvite hash link revoked => s.editExportedChatInvite c.userId hash link revoked

/-- What a request leaves, answered or refused. -/
def step (config : AppConfig) (s : Roster) (c : Command) : Option Roster :=
  some (c.handle config s).left

end Steps

end Piltover.Members
