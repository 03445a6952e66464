/- source: piltover/app/handlers/messages/sending.py
   digest: Which senders the five posting requests let through, against who may post. -/

import Piltover.Channels.Rights
import Piltover.Failure

set_option autoImplicit false

namespace Piltover.Channels

open Piltover.Foundation.Masks

inductive FileType
  | document | photo | documentGif | documentVideo | documentAudio | documentVoice
  | documentVideoNote | documentSticker | documentEmoji | encrypted
  deriving DecidableEq, Repr

/-- The right that a file needs; an emoji needs none of the media rights. -/
def FileType.toChatBannedRight : FileType → Option Nat
  | .documentGif => some ChatBannedRights.sendGifs
  | .documentVideo => some ChatBannedRights.sendVideos
  | .documentAudio => some ChatBannedRights.sendAudios
  | .documentVoice => some ChatBannedRights.sendVoices
  | .documentVideoNote => some ChatBannedRights.sendRoundvideos
  | .documentSticker => some ChatBannedRights.sendStickers
  | .documentEmoji => none
  | .document | .photo | .encrypted => some ChatBannedRights.sendDocs

inductive MediaType
  | document | photo | poll | contact | geopoint | dice | invoice
  deriving DecidableEq, Repr

structure MessageMedia where
  type : MediaType
  file : Option FileType
  deriving DecidableEq, Repr

def MessageMedia.toChatBannedRight (media : MessageMedia) : Option Nat :=
  match media.type, media.file with
  | .photo, _ => some ChatBannedRights.sendPhotos
  | .poll, _ => some ChatBannedRights.sendPolls
  | .dice, _ | .geopoint, _ | .contact, _ => none
  | .document, some file => file.toChatBannedRight
  | .document, none | .invoice, _ => some ChatBannedRights.none

/-- A video attribute of an older layer has a type of its own. -/
inductive DocumentAttribute
  | animated
  | video (roundMessage : Bool)
  | oldVideo (roundMessage : Bool)
  | audio (voice : Bool)
  | sticker
  | imageSize
  | other
  deriving DecidableEq, Repr

/-- The media of a request; a document comes with the stored file that it names, if there is one. -/
inductive InputMedia
  | photo
  | uploadedPhoto
  | poll
  | dice
  | uploadedDocument (attributes : List DocumentAttribute) (mimeType : String)
  | uploadedDocument133 (attributes : List DocumentAttribute)
  | document (file : Option FileType)
  | contact
  | geoPoint
  | invoice
  | other
  deriving DecidableEq, Repr

def DocumentAttribute.bannedRight : DocumentAttribute → Option Nat
  | .animated => some ChatBannedRights.sendGifs
  | .video true => some ChatBannedRights.sendRoundvideos
  | .video false => some ChatBannedRights.sendVideos
  | .audio true => some ChatBannedRights.sendVoices
  | .audio false => some ChatBannedRights.sendAudios
  | .sticker => some ChatBannedRights.sendStickers
  | .imageSize => some ChatBannedRights.sendPhotos
  | .oldVideo _ | .other => none

def mimeBannedRight (mimeType : String) : Nat :=
  if mimeType.startsWith "video/" then ChatBannedRights.sendVideos
  else if mimeType.startsWith "audio/" then ChatBannedRights.sendAudios
  else if mimeType = "image/gif" then ChatBannedRights.sendGifs
  else if mimeType.startsWith "image/" then ChatBannedRights.sendPhotos
  else ChatBannedRights.sendDocs

def getInputMediaBannedRights : InputMedia → Nat
  | .photo | .uploadedPhoto => ChatBannedRights.sendPhotos
  | .poll => ChatBannedRights.sendPolls
  | .dice => ChatBannedRights.sendPlain
  | .uploadedDocument attributes mimeType =>
    (attributes.findSome? DocumentAttribute.bannedRight).getD (mimeBannedRight mimeType)
  | .document none => ChatBannedRights.sendDocs
  | .document (some file) => file.toChatBannedRight.getD ChatBannedRights.none
  | .uploadedDocument133 _ | .contact | .geoPoint | .invoice | .other => ChatBannedRights.none

def FileType.parseAttribute (type : FileType) : DocumentAttribute → FileType
  | .animated => if type = .document then .documentGif else type
  | .video roundMessage | .oldVideo roundMessage =>
    if roundMessage then .documentVideoNote else .documentVideo
  | .audio voice => if voice then .documentVoice else .documentAudio
  | .sticker | .imageSize | .other => type

/-- `_process_media`, as to what kind of media is stored; its other checks are part of `rest`. -/
def processMedia : InputMedia → Except Failure MessageMedia
  | .photo | .uploadedPhoto => .ok ⟨.photo, some .photo⟩
  | .uploadedDocument attributes _ | .uploadedDocument133 attributes =>
    .ok ⟨.document, some (attributes.foldl FileType.parseAttribute .document)⟩
  | .document (some file) => .ok ⟨.document, some file⟩
  | .poll => .ok ⟨.poll, none⟩
  | .dice => .ok ⟨.dice, none⟩
  | .contact => .ok ⟨.contact, none⟩
  | .geoPoint => .ok ⟨.geopoint, none⟩
  | .invoice => .ok ⟨.invoice, none⟩
  | .document none | .other => .error (.rpc 400 "MEDIA_INVALID")

structure AppConfig where
  maxMessageLength : Nat
  maxCaptionLength : Nat

structure Sender where
  id : UserId
  bot : Bool
  spamBlocked : Bool
  deriving DecidableEq, Repr

/-- The chat of the resolved peer, its participants, and what the checks find about the sender. -/
structure Target where
  peer : ChatOrChannel
  participants : List ChatParticipant
  /-- The wait that is left when the last slow mode post of the sender is too recent. -/
  slowmodeWait : Option String
  /-- The reply of the request answers a message of somebody else. -/
  repliesToIncoming : Bool
  deriving DecidableEq, Repr

namespace Target

def participant (t : Target) (user : Sender) : Option ChatParticipant :=
  ChatOrChannel.getParticipant t.participants user.id

def checkChannelSlowmode (t : Target) (user : Sender) : Except Failure Unit :=
  match t.peer with
  | .chat _ => .ok ()
  | .channel c =>
    if c.slowmodeSeconds.getD 0 == 0 then .ok ()
    else if (t.participant user).any (fun p => !p.left && p.isAdmin) then .ok ()
    else
      match t.slowmodeWait with
      | none => .ok ()
      | some wait => .error (.rpc 420 ("SLOWMODE_WAIT_" ++ wait))

def peerAllowsSpamBlockedSend (t : Target) (user : Sender) : Bool :=
  match t.participant user with
  | none => false
  | some p => t.peer.base.creatorId == p.userId || p.isAdmin

/-- `check_user_spam_blocked`, for group peers. -/
def checkSpamBlocked (t : Target) (user : Sender) (replyTo : Option Nat) : Except Failure Unit :=
  require (user.bot || !user.spamBlocked || t.peerAllowsSpamBlockedSend user
    || (replyTo.isSome && t.repliesToIncoming)) (.rpc 400 "PEER_FLOOD")

end Target

/-- A request that succeeds stores new messages, or answers with those that an earlier request with
the same random id has stored. -/
inductive Outcome
  | posted
  | replayed
  deriving DecidableEq, Repr

/-- The requests name `rest` what follows their checks: the reply markup, the identity to send as,
and the storing of the message. -/
structure SendMessage where
  scheduled : Bool
  randomId : Int
  existing : Bool
  replyTo : Option Nat
  message : String
  rest : Except Failure Unit

-- The checks for a blocked, deleted or bot user only concern private peers and are left out.
def sendMessage (config : AppConfig) (user : Sender) (t : Target) (r : SendMessage) :
    Except Failure Outcome := do
  require (!(r.scheduled && user.bot)) (.rpc 400 "SCHEDULE_BOT_NOT_ALLOWED")
  require (r.randomId != 0) (.rpc 400 "RANDOM_ID_EMPTY")
  if r.existing then .ok .replayed else
  require (t.peer.canSendPlain (t.participant user)) (.rpc 403 "CHAT_SEND_PLAIN_FORBIDDEN")
  t.checkChannelSlowmode user
  t.checkSpamBlocked user r.replyTo
  require (r.message.length != 0) (.rpc 400 "MESSAGE_EMPTY")
  require (r.message.length ≤ config.maxMessageLength) (.rpc 400 "MESSAGE_TOO_LONG")
  r.rest
  .ok .posted

structure SendMedia where
  scheduled : Bool
  randomId : Int
  existing : Bool
  replyTo : Option Nat
  message : String
  media : InputMedia
  rest : Except Failure Unit

def sendMedia (config : AppConfig) (user : Sender) (t : Target) (r : SendMedia) :
    Except Failure Outcome := do
  require (!(r.scheduled && user.bot)) (.rpc 400 "SCHEDULE_BOT_NOT_ALLOWED")
  require (r.randomId != 0) (.rpc 400 "RANDOM_ID_EMPTY")
  if r.existing then .ok .replayed else
  require (t.peer.canSendMedia (t.participant user) (getInputMediaBannedRights r.media))
    (.rpc 403 "CHAT_WRITE_FORBIDDEN")
  t.checkChannelSlowmode user
  t.checkSpamBlocked user r.replyTo
  require (r.message.length ≤ config.maxCaptionLength) (.rpc 400 "MEDIA_CAPTION_TOO_LONG")
  let _ ← processMedia r.media
  r.rest
  .ok .posted

/-- One item of an album, with the stored media that it names. -/
structure SingleMedia where
  message : String
  randomId : Int
  media : Option MessageMedia
  deriving DecidableEq, Repr

structure SendMultiMedia where
  scheduled : Bool
  replyTo : Option Nat
  replyExists : Bool
  multiMedia : List SingleMedia
  /-- Some message of the peer has one of the random ids already. -/
  duplicate : Bool
  rest : Except Failure Unit

def checkSingleMedia (config : AppConfig) (item : SingleMedia) : Except Failure MessageMedia := do
  require (item.message.length ≤ config.maxCaptionLength) (.rpc 400 "MEDIA_CAPTION_TOO_LONG")
  require (item.randomId != 0) (.rpc 400 "RANDOM_ID_EMPTY")
  match item.media with
  | none => .error (.rpc 400 "MEDIA_INVALID")
  | some media => .ok media

def sendMultiMedia (config : AppConfig) (user : Sender) (t : Target) (r : SendMultiMedia) :
    Except Failure Outcome := do
  require (!(r.scheduled && user.bot)) (.rpc 400 "SCHEDULE_BOT_NOT_ALLOWED")
  require (t.peer.canSendMedia (t.participant user) ChatBannedRights.none)
    (.rpc 403 "CHAT_WRITE_FORBIDDEN")
  t.checkChannelSlowmode user
  t.checkSpamBlocked user r.replyTo
  require (!r.multiMedia.isEmpty) (.rpc 400 "MEDIA_EMPTY")
  require (r.multiMedia.length ≤ 10) (.rpc 400 "MULTI_MEDIA_TOO_LONG")
  require (r.replyTo.getD 0 == 0 || r.replyExists) (.rpc 400 "REPLY_TO_INVALID")
  let _ ← r.multiMedia.mapM (checkSingleMedia config)
  require (!r.duplicate) (.rpc 500 "RANDOM_ID_DUPLICATE")
  r.rest
  .ok .posted

structure SourceMessage where
  noForwards : Bool
  media : Option MessageMedia
  deriving DecidableEq, Repr

structure ForwardMessages where
  /-- Finding the chat to forward from, and the right to read and forward from it. -/
  source : Except Failure Unit
  ids : List Nat
  randomIds : List Int
  /-- Some of the random ids belong to messages that were forwarded before. -/
  existing : Bool
  /-- The messages that the other ids name. -/
  messages : List SourceMessage
  rest : Except Failure Unit

/-- The rights that the content of a forwarded message adds to what is checked: whether plain
messages have to be allowed, and which media. -/
def checkCanSendFlags (messages : List SourceMessage) : Bool × Nat :=
  messages.foldl
    (fun flags message =>
      match message.media with
      | none => (true, flags.2)
      | some media =>
        match media.toChatBannedRight with
        | some bannedRights => (flags.1, flags.2 ||| bannedRights)
        | none => (true, flags.2))
    (false, ChatBannedRights.none)

/-- Slow mode lets only admins forward several messages at once. -/
def Target.checkSlowmodeMulti (t : Target) (user : Sender) (count : Nat) : Except Failure Unit :=
  match t.peer with
  | .chat _ => .ok ()
  | .channel c =>
    require (c.slowmodeSeconds.isNone || (t.participant user).any (fun p => p.isAdmin)
      || decide (count ≤ 1)) (.rpc 400 "SLOWMODE_MULTI_MSGS_DISABLED")

def forwardMessages (user : Sender) (t : Target) (r : ForwardMessages) :
    Except Failure Outcome := do
  r.source
  require (t.peer.canSendMessages (t.participant user)) (.rpc 403 "CHAT_WRITE_FORBIDDEN")
  t.checkChannelSlowmode user
  t.checkSlowmodeMulti user r.ids.length
  t.checkSpamBlocked user none
  require (!r.ids.isEmpty) (.rpc 400 "MESSAGE_IDS_EMPTY")
  require (r.ids.length == r.randomIds.length) (.rpc 400 "RANDOM_ID_INVALID")
  require (!(r.randomIds.take 100).contains 0) (.rpc 400 "RANDOM_ID_EMPTY")
  require (decide (r.randomIds.take 100).Nodup) (.rpc 500 "RANDOM_ID_DUPLICATE")
  if r.messages.isEmpty then
    if r.existing then .ok .replayed else .error (.rpc 400 "MESSAGE_IDS_EMPTY")
  else
  require (r.messages.all fun message => !message.noForwards)
    (.rpc 406 "CHAT_FORWARDS_RESTRICTED")
  let flags := checkCanSendFlags r.messages
  require (!flags.1 || t.peer.canSendPlain (t.participant user)) (.rpc 403 "CHAT_WRITE_FORBIDDEN")
  require (flags.2 == 0 || t.peer.canSendMedia (t.participant user) flags.2)
    (.rpc 403 "CHAT_WRITE_FORBIDDEN")
  r.rest
  .ok .posted

structure InlineQueryResultItem where
  photo : Option FileType
  document : Option FileType
  sendMessageText : Option String
  deriving DecidableEq, Repr

def InlineQueryResultItem.media (item : InlineQueryResultItem) : Option MessageMedia :=
  match item.photo, item.document with
  | some file, _ => some ⟨.photo, some file⟩
  | none, some file => some ⟨.document, some file⟩
  | none, none => none

structure SendInlineBotResult where
  randomId : Int
  existing : Bool
  replyTo : Option Nat
  item : Option InlineQueryResultItem
  rest : Except Failure Unit

def sendInlineBotResult (user : Sender) (t : Target) (r : SendInlineBotResult) :
    Except Failure Outcome := do
  require (r.randomId != 0) (.rpc 400 "RANDOM_ID_EMPTY")
  if r.existing then .ok .replayed else
  require (t.peer.canSendMessages (t.participant user)) (.rpc 403 "CHAT_WRITE_FORBIDDEN")
  t.checkChannelSlowmode user
  t.checkSpamBlocked user r.replyTo
  match r.item with
  | none => .error (.rpc 400 "RESULT_ID_INVALID")
  | some item =>
    require ((item.sendMessageText.getD "").length != 0 || item.media.isSome)
      (.rpc 400 "MEDIA_EMPTY")
    r.rest
    .ok .posted

end Piltover.Channels
