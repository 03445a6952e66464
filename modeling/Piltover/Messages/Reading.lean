/- source: piltover/app/handlers/messages/history.py, piltover/app/handlers/messages/sending.py
   digest: Unpinning all messages of a peer, and reading contents and mentions. -/

import Piltover.Messages.Dialogs

set_option autoImplicit false

namespace Piltover.Messages

open Piltover.Channels (ChatParticipant)
open Piltover.Foundation
open Piltover.Updates (Manager.Server Manager.ByPeer)

section UnpinAllMessages

/-- `ChatAdminRights.PIN_MESSAGES` and `ChatBannedRights.PIN_MESSAGES`. -/
def adminPinMessages : Nat := 1 <<< 7

def bannedPinMessages : Nat := 1 <<< 17

def Chat.canPinMessages (chat : Chat) (participant : ChatParticipant) : Bool :=
  (Channels.ChatOrChannel.chat chat.toChatBase).checkRights (some participant) adminPinMessages
    bannedPinMessages

def Db.getParticipantRaise (db : Db) (chatId userId : Nat) : Except Failure ChatParticipant :=
  orRaise (Channels.ChatOrChannel.getParticipant
    ((db.participants.filter fun p => p.1 == chatId).map Prod.snd) userId)
    (.rpc 400 "CHAT_RESTRICTED")

def checkUnpin (db : Db) (userId : Nat) (peer : Peer) : Except Failure Unit :=
  match peer.target with
  | .self => pure ()
  | .chat chatId => do
      let chat ← orRaise (db.chats.get chatId) .other
      let participant ← db.getParticipantRaise chatId userId
      require (chat.canPinMessages participant) (.rpc 403 "CHAT_WRITE_FORBIDDEN")
  | .user otherId =>
    -- `_check_bot_blocked`
    require (!(db.bots.contains userId && db.peers.rows.any fun p =>
      p.ownerId == otherId && p.target == .user userId && p.blocked)) (.rpc 400 "USER_IS_BLOCKED")

/-- `peer_query`. -/
def sharesPins (peer other : Peer) : Bool :=
  match peer.target with
  | .self => other == peer
  | .user userId => (other.ownerId == userId && other.target == .user peer.ownerId) || other == peer
  | .chat chatId => other.target == .chat chatId

/-- The pinned references of the conversation. -/
def pinnedRefs (db : Db) (peer : Peer) : List MessageRef :=
  db.refs.rows.filter fun r =>
    sharesPins peer r.peer && r.pinned &&
      (db.contents.get r.contentId).any fun content => content.type == .regular

def MessageRef.unpin (r : MessageRef) : MessageRef :=
  { r with pinned := false, version := r.version + 1 }

/-- A reference and a peer as `upd.pin_messages` reads them, for messages that are not of service. -/
def MessageRef.forManager (r : MessageRef) : Updates.Manager.MessageRef where
  id := r.id
  contentId := r.contentId
  randomId := none
  pinned := r.pinned
  service := false

def Peer.forManager (p : Peer) : Updates.Manager.Peer := ⟨p.id, p.ownerId⟩

def byPeer (refs : List MessageRef) : List (Updates.Manager.Peer × List Updates.Manager.MessageRef) :=
  (refs.map MessageRef.peer).dedup.map fun p =>
    (p.forManager, (refs.filter fun r => r.peer == p).map MessageRef.forManager)

def unpinAllMessages (db : Db) (userId peerId : Nat) : Except Failure (Db × Affected) := do
  let peer ← db.fromInputPeerRaise userId peerId false
  checkUnpin db userId peer
  let found := pinnedRefs db peer
  if found = [] then
    let (db, pts) ← db.addPts userId 0
    pure (db, ⟨pts, 0, 0⟩)
  else
    let refs := db.refs.modify (fun r => (found.map MessageRef.id).contains r.id) MessageRef.unpin
      fun _ => rfl
    let items := byPeer (found.map MessageRef.unpin)
    -- Two peers of one conversation have different owners.
    if owners : (items.map fun item => item.1.ownerId).Nodup then
      match db.server.pinMessages userId ⟨items, owners⟩ with
      | none => .error .other
      | some (server, pts, ptsCount, _) =>
        pure ({ db with refs := refs, server := server }, ⟨pts, ptsCount, 0⟩)
    else .error .other

end UnpinAllMessages

section ReadMessageContents

/-- `read_message_contents_internal`: what is read, if anything, and the identifiers of the
references and of the contents with reactions that were unread. -/
def readMessageContentsInternal (db : Db) (userId : Nat) (validRefs : List MessageRef) :
    Db × Option (List Nat) :=
  let contentIds := validRefs.map MessageRef.contentId
  let refByContentId := OrderedDict.ofPairs (validRefs.map fun r => (r.contentId, r.id))
  let mentions := db.mentions.rows.filter fun m =>
    m.userId == userId && contentIds.contains m.contentId && m.unreadTargetId.isSome
  let refsWithMedia := (validRefs.filter fun r =>
    (db.contents.get r.contentId).any fun content => content.readableMedia).filter fun r =>
      !db.mediaReads.contains (userId, r.id)
  let unreadReactionIds := (db.contents.rows.filter fun content =>
    contentIds.contains content.id && content.authorId == some userId &&
      content.authorReactionsUnread).map MessageContent.id
  if mentions = [] ∧ refsWithMedia = [] ∧ unreadReactionIds = [] then (db, none)
  else
    let readIds := (mentions.filterMap (fun m => refByContentId.lookup m.contentId) ++
      refsWithMedia.map MessageRef.id).dedup
    ({ db with
        mentions := db.mentions.modify (fun m => (mentions.map MessageMention.id).contains m.id)
          (fun m => { m with unreadTargetId := none }) fun _ => rfl
        mediaReads := db.mediaReads ++ refsWithMedia.map fun r => (userId, r.id)
        contents := db.contents.modify (fun content => unreadReactionIds.contains content.id)
          (fun content => { content with authorReactionsUnread := false }) fun _ => rfl },
      some (readIds ++ unreadReactionIds))

def readMessageContents (db : Db) (userId : Nat) (ids : List Nat) :
    Except Failure (Db × Affected) := do
  if ids = [] then
    let (db, pts) ← db.addPts userId 0
    pure (db, ⟨pts, 0, 0⟩)
  else
    let validRefs := db.refs.rows.filter fun r =>
      r.peer.ownerId == userId && (ids.take 100).contains r.id
    match readMessageContentsInternal db userId validRefs with
    | (db, none) =>
      let (db, pts) ← db.addPts userId 0
      pure (db, ⟨pts, 0, 0⟩)
    | (db, some messageIds) =>
      let (db, pts) ← db.updReadMessagesContents userId messageIds
      pure (db, ⟨pts, messageIds.length, 0⟩)

end ReadMessageContents

section ReadMentions

def readMentions (db : Db) (userId peerId : Nat) : Except Failure (Db × Affected) := do
  let peer ← db.fromInputPeerRaise userId peerId true
  match peer.target with
  | .chat chatId =>
    let mentioned := db.mentions.rows.filter fun m =>
      m.userId == userId && m.unreadTargetId == some (Chat.makeIdFrom chatId)
    if mentioned = [] then
      let (db, pts) ← db.addPts userId 0
      pure (db, ⟨pts, 0, 0⟩)
    else
      let mentionedIds := mentioned.map MessageMention.contentId
      let db := { db with
        mentions := db.mentions.modify (fun m => (mentioned.map MessageMention.id).contains m.id)
          (fun m => { m with unreadTargetId := none }) fun _ => rfl
        refs := db.refs.modify (fun r => mentionedIds.contains r.contentId)
          (fun r => { r with version := r.version + 1 }) fun _ => rfl }
      let refIds := (db.refs.rows.filter fun r =>
        r.peer == peer && mentionedIds.contains r.contentId).map MessageRef.id
      let (db, pts) ← db.updReadMessagesContents userId refIds
      pure (db, ⟨pts, refIds.length, 0⟩)
  | _ =>
    let (db, pts) ← db.addPts userId 0
    pure (db, ⟨pts, 0, 0⟩)

end ReadMentions

end Piltover.Messages
