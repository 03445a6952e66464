/- source: piltover/app/handlers/messages/history.py, piltover/app/handlers/messages/dialogs.py,
     piltover/db/models/peer.py, piltover/db/models/read_state.py, piltover/db/models/dialog.py,
     piltover/db/models/message_ref.py
   digest: What a user reads of the messages: histories and searches, dialogs, unread counters. -/

import Mathlib.Data.List.Infix
import Piltover.Channels.Rights
import Piltover.Foundation.Paging
import Piltover.Foundation.Table

set_option autoImplicit false

namespace Piltover.History

open Piltover.Foundation
open Piltover.Foundation.Paging

inductive MediaType
  | document | photo | poll | contact | geopoint | dice | invoice
  deriving DecidableEq, Repr

inductive FileType
  | document | photo | documentGif | documentVideo | documentAudio | documentVoice
  | documentVideoNote | documentSticker | documentEmoji | encrypted
  deriving DecidableEq, Repr

structure MessageMedia where
  type : MediaType
  file : Option FileType
  deriving DecidableEq, Repr

inductive MessageType
  | regular
  | service (code : Nat)
  | scheduled
  deriving DecidableEq, Repr

structure MessageContent where
  id : Nat
  type : MessageType
  authorId : Nat
  message : List Char
  date : Int
  media : Option MessageMedia
  authorReactionsUnread : Bool
  savedPeerId : Option Nat
  deriving DecidableEq, Repr

/-- A row of `MessageRef` joined with its content. -/
structure MessageRef where
  id : Nat
  peerId : Nat
  content : MessageContent
  pinned : Bool
  replyToId : Option Nat
  topMessageId : Option Nat
  deriving DecidableEq, Repr

inductive PeerType
  | self
  | user (userId : Nat)
  | chat (chatId : Nat)
  | channel (channelId : Nat)
  deriving DecidableEq, Repr

structure Peer where
  id : Nat
  ownerId : Option Nat
  type : PeerType
  lastMessageId : Option Nat
  lastMessageDate : Option Int
  outMaxReadId : Nat
  deriving DecidableEq, Repr

structure Channel extends Channels.Channel where
  minAvailableId : Option Nat
  minAvailableIdForce : Option Nat
  deriving DecidableEq, Repr

structure ChatParticipant extends Channels.ChatParticipant where
  channelId : Nat
  minMessageId : Option Nat
  deriving DecidableEq, Repr

def ChatParticipant.key (p : ChatParticipant) : Nat × Nat := (p.userId, p.channelId)

structure MessageMention where
  userId : Nat
  chatId : Option Nat
  channelId : Option Nat
  contentId : Nat
  unreadTargetId : Option Nat
  deriving DecidableEq, Repr

structure ReadState where
  ownerId : Nat
  peerId : Nat
  lastMessageId : Nat
  deriving DecidableEq, Repr

structure Dialog where
  id : Nat
  ownerId : Nat
  peerId : Nat
  pinned : Bool
  folderId : Nat
  visible : Bool
  deriving DecidableEq, Repr

structure Setting where
  peers : Table Peer.id
  channels : Table fun channel : Channel => channel.id
  participants : Table ChatParticipant.key
  mentions : List MessageMention
  readStates : List ReadState
  dialogs : List Dialog

structure Db extends Setting where
  refs : Table MessageRef.id

section Filters

inductive MessagesFilter
  | empty | pinned | document | photos | photoVideo | video | gif | voice | music | roundVoice
  | roundVideo | url | chatPhotos | myMentions | contacts | geo | phoneCalls | unsupported
  deriving DecidableEq, Repr

def icontains (text needle : List Char) : Bool :=
  decide (needle.map Char.toLower <:+: text.map Char.toLower)

namespace MessageRef

variable (r : MessageRef)

def hasMedia (type : MediaType) : Bool := r.content.media.any fun media => media.type == type

def hasFile (type : FileType) : Bool := r.content.media.any fun media => media.file == some type

def hasUrl : Bool :=
  icontains r.content.message "https://".toList || icontains r.content.message "http://".toList ||
    icontains r.content.message "t.me/".toList

/-- The identifier is at least the one given, if any; 0 counts as none. -/
def isFrom (minId : Option Nat) : Bool := minId.all fun id => id == 0 || decide (id ≤ r.id)

end MessageRef

namespace Setting

variable (s : Setting) (userId : Nat)

def isMentioned (peer : Option Peer) (r : MessageRef) : Bool :=
  match peer.map Peer.type with
  | some (.chat chatId) => s.mentions.any fun m =>
    m.chatId == some chatId && m.userId == userId && m.contentId == r.content.id
  | some (.channel channelId) => s.mentions.any fun m =>
    m.channelId == some channelId && m.userId == userId && m.contentId == r.content.id
  | _ => r.id == 0

def messageFilterToQuery (filter : MessagesFilter) (peer : Option Peer) :
    Option (MessageRef → Bool) :=
  match filter with
  | .empty => none
  | .pinned => some fun r => r.pinned
  | .document => some fun r => r.hasMedia .document
  | .photos => some fun r => r.hasMedia .photo
  | .photoVideo => some fun r => r.hasMedia .photo || r.hasFile .documentVideo
  | .video => some fun r => r.hasFile .documentVideo
  | .gif => some fun r => r.hasFile .documentGif
  | .voice => some fun r => r.hasFile .documentVoice
  | .music => some fun r => r.hasFile .documentAudio
  | .roundVoice | .roundVideo =>
    some fun r => r.hasFile .documentVoice || r.hasFile .documentVideoNote
  | .url => some fun r => r.hasUrl
  | .chatPhotos => some fun r => r.content.type == .service 4
  | .myMentions => some fun r => s.isMentioned userId peer r
  | .contacts => some fun r => r.hasMedia .contact
  | .geo => some fun r => r.hasMedia .geopoint
  | .phoneCalls => some fun r => r.content.type == .service 14
  | .unsupported => some fun r => r.id == 0

/-- `append_channel_min_message_id_to_query_maybe` for a channel, the row of a participant that the
caller has at hand, if any, and the user who reads. -/
def isAvailableIn (channel : Channel) (participant : Option ChatParticipant) (r : MessageRef) :
    Bool :=
  r.isFrom channel.minAvailableIdForce &&
    (!channel.hiddenPrehistory || r.isFrom channel.minAvailableId) &&
    (match participant.bind ChatParticipant.minMessageId with
      | some minId => decide (minId ≤ r.id)
      | none => r.isFrom (((s.participants.get (userId, channel.id)).filter fun p => !p.left).bind
          ChatParticipant.minMessageId)) &&
    -- In a broadcast channel a user sees of the joins by invite the user's own.
    (!channel.channel || r.content.type != .service 7 || r.content.authorId == userId)

/-- The same for a peer, with no row at hand. -/
def isAvailable (peer : Peer) (r : MessageRef) : Bool :=
  match peer.type with
  | .channel channelId => (s.channels.get channelId).all fun channel =>
    s.isAvailableIn (peer.ownerId.getD userId) channel none r
  | _ => true

end Setting

end Filters

section Queries

/-- Where messages are looked for: in a peer, or in all peers of the user. -/
inductive Scope
  | peer (p : Peer)
  | global
  deriving DecidableEq, Repr

def Scope.asPeer : Scope → Option Peer
  | .peer p => some p
  | .global => none

/-- The arguments of `get_messages_query_internal`; numbers that are 0 are not given. -/
structure Arguments where
  maxId : Nat
  minId : Nat
  offsetId : Nat
  limit : Int
  addOffset : Int
  fromUserId : Nat
  minDate : Int
  maxDate : Int
  q : Option (List Char)
  filter : Option MessagesFilter
  savedPeerId : Option Nat
  unreadReactions : Bool
  onlyMentions : Bool
  replyToId : Nat
  topMsgId : Nat
  deriving DecidableEq, Repr

namespace Setting

variable (s : Setting) (userId : Nat) (scope : Scope) (a : Arguments)

def inScope (r : MessageRef) : Bool :=
  match scope with
  | .peer p => r.peerId == p.id
  | .global => (s.peers.get r.peerId).any fun p => p.ownerId == some userId

def filterQuery : Option (MessageRef → Bool) :=
  a.filter.bind fun filter => s.messageFilterToQuery userId filter scope.asPeer

/-- The type that is asked for, where the filter does not ask for anything. -/
def typeQuery (r : MessageRef) : Bool :=
  if !a.onlyMentions && a.filter.isNone && a.savedPeerId.isNone && a.q.isNone &&
      !a.unreadReactions then r.content.type != .scheduled
  else if (s.filterQuery userId scope a).isNone then r.content.type == .regular
  else true

/-- Author, dates and identifiers. -/
def rangeQuery (r : MessageRef) : Bool :=
  (a.fromUserId == 0 || r.content.authorId == a.fromUserId) &&
    (a.minDate == 0 || decide (a.minDate < r.content.date)) &&
    (a.maxDate == 0 || decide (r.content.date < a.maxDate)) &&
    (a.maxId == 0 || decide (r.id < a.maxId)) && (a.minId == 0 || decide (a.minId < r.id))

def mentionQuery (r : MessageRef) : Bool :=
  let target := match scope.asPeer.map Peer.type with
    | some (.chat chatId) => some (chatId * 2)
    | some (.channel channelId) => some (channelId * 2 + 1)
    | _ => none
  s.mentions.any fun m =>
    m.unreadTargetId == target && m.userId == userId && m.contentId == r.content.id

def mentionsHaveTarget : Bool :=
  match scope.asPeer.map Peer.type with
  | some (.chat _) | some (.channel _) => true
  | _ => false

def baseQuery (r : MessageRef) : Bool :=
  s.inScope userId scope r && ((s.filterQuery userId scope a).all fun query => query r) &&
    s.typeQuery userId scope a r && (a.q.all fun q => q.isEmpty || icontains r.content.message q) &&
    rangeQuery a r &&
    (match scope, a.savedPeerId with
      | .peer p, some saved => p.type != .self || r.content.savedPeerId == some saved
      | _, _ => true) &&
    (!a.unreadReactions || (r.content.authorReactionsUnread && r.content.authorId != userId))

/-- The rows that `query` asks for, before the offsets. -/
def matchesQuery (r : MessageRef) : Bool :=
  (if a.onlyMentions then
    if mentionsHaveTarget scope then s.baseQuery userId scope a r && s.mentionQuery userId scope r
    else r.id == 0
  else s.baseQuery userId scope a r) &&
    (a.replyToId == 0 || r.replyToId == some a.replyToId || r.topMessageId == some a.replyToId ||
      (a.offsetId != 0 && r.id == a.replyToId)) &&
    (a.topMsgId == 0 || r.topMessageId == some a.topMsgId || r.id == a.topMsgId) &&
    scope.asPeer.all fun p => s.isAvailable userId p r

end Setting

def descending (rows : List MessageRef) : List MessageRef := newest MessageRef.id rows rows.length

/-- The page of `rows` that the offsets ask for. -/
def pageOf (a : Arguments) (rows : List MessageRef) : List MessageRef :=
  let limit := (max (min 100 a.limit) 1).toNat
  if 0 ≤ a.addOffset then
    let rows := rows.filter fun r => a.offsetId == 0 || decide (r.id < a.offsetId)
    (newest MessageRef.id rows (a.addOffset.toNat + limit)).drop a.addOffset.toNat
  else
    let after := oldest MessageRef.id (rows.filter fun r => decide (a.offsetId ≤ r.id))
      (min a.addOffset.natAbs limit)
    if limit ≤ after.length then descending after
    else
      let before := newest MessageRef.id (rows.filter fun r => decide (r.id < a.offsetId))
        (limit - after.length)
      descending (before ++ after)

def Db.getMessagesQueryInternal (db : Db) (userId : Nat) (scope : Scope) (a : Arguments) :
    List MessageRef :=
  pageOf a (db.refs.rows.filter (db.matchesQuery userId scope a))

theorem mem_of_mem_pageOf {a : Arguments} {rows : List MessageRef} {r : MessageRef}
    (listed : r ∈ pageOf a rows) : r ∈ rows := by
  have part : ∀ (check : MessageRef → Bool) limit,
      r ∈ newest MessageRef.id (rows.filter check) limit → r ∈ rows :=
    fun check limit taken => (List.mem_filter.mp (mem_of_mem_newest taken)).1
  have older : ∀ (check : MessageRef → Bool) limit,
      r ∈ oldest MessageRef.id (rows.filter check) limit → r ∈ rows :=
    fun check limit taken =>
      (List.mem_filter.mp ((List.mem_insertionSort _).mp (List.mem_of_mem_take taken))).1
  unfold pageOf at listed
  split at listed
  · exact part _ _ (List.mem_of_mem_drop listed)
  · dsimp only at listed
    split at listed
    · exact older _ _ (mem_of_mem_newest listed)
    · rcases List.mem_append.mp (mem_of_mem_newest listed) with before | after
      · exact part _ _ before
      · exact older _ _ after

/-- What is answered is stored and asked for. -/
theorem mem_getMessagesQueryInternal {db : Db} {userId : Nat} {scope : Scope} {a : Arguments}
    {r : MessageRef} (listed : r ∈ db.getMessagesQueryInternal userId scope a) :
    r ∈ db.refs ∧ db.matchesQuery userId scope a r = true :=
  List.mem_filter.mp (mem_of_mem_pageOf listed)

/-- A message in a peer that a query asks for is of a type that it may have, or a filter finds
it. -/
theorem typed_of_baseQuery {s : Setting} {userId : Nat} {p : Peer} {a : Arguments} {r : MessageRef}
    (asked : s.baseQuery userId (.peer p) a r = true) :
    r.peerId = p.id ∧ (r.content.type ≠ .scheduled ∨ ∃ filter query,
      s.messageFilterToQuery userId filter (some p) = some query ∧ query r = true) := by
  unfold Setting.baseQuery at asked
  simp only [Bool.and_eq_true] at asked
  obtain ⟨⟨⟨⟨⟨⟨inScope, filtered⟩, typed⟩, -⟩, -⟩, -⟩, -⟩ := asked
  refine ⟨beq_iff_eq.mp inScope, ?_⟩
  unfold Setting.typeQuery at typed
  cases looked : s.filterQuery userId (.peer p) a with
  | none =>
    left
    rw [looked] at typed
    split at typed
    · exact bne_iff_ne.mp typed
    · intro scheduled
      simp [scheduled] at typed
  | some query =>
    obtain ⟨filter, -, made⟩ := Option.bind_eq_some_iff.mp looked
    rw [looked] at filtered
    exact .inr ⟨filter, query, made, by simpa using filtered⟩

theorem upTo_eq_singleton {db : Db} {userId : Nat} {scope : Scope} {a : Arguments} {r : MessageRef}
    (here : r ∈ db.refs) (asked : db.matchesQuery userId scope a r = true)
    (mentions : a.onlyMentions = false) (upTo : a.maxId = r.id + 1)
    (plain : a.offsetId = 0 ∧ a.addOffset = 0 ∧ a.limit = 1) :
    db.getMessagesQueryInternal userId scope a = [r] := by
  have greatest : ∀ s ∈ db.refs.rows.filter (db.matchesQuery userId scope a), s.id ≤ r.id := by
    intro s listed
    have matched := (List.mem_filter.mp listed).2
    simp only [Setting.matchesQuery, mentions, Setting.baseQuery, Setting.rangeQuery, upTo,
      Bool.and_eq_true, Bool.or_eq_true, beq_iff_eq, decide_eq_true_iff, Bool.false_eq_true, if_false] at matched
    omega
  have only := newest_one (List.mem_filter.mpr ⟨here, asked⟩) greatest (db.refs.nodup_filter _)
  obtain ⟨first, second, third⟩ := plain
  unfold Db.getMessagesQueryInternal pageOf
  rw [first, second, third]
  simpa using only

end Queries

section Dialogs

namespace Db

variable (db : Db) (userId : Nat)

/-- `_LAST_MESSAGE_SYNC_SQL`: the row with the greatest identifier, of whatever type. -/
def lastMessage (peerId : Nat) : Option MessageRef :=
  (newest MessageRef.id (db.refs.rows.filter fun r => r.peerId == peerId) 1).head?

def syncLastMessageBulk (peerIds : List Nat) : Db :=
  { db with
    peers := db.peers.modify (fun p => peerIds.contains p.id) (fun p =>
      match db.lastMessage p.id with
      | some r => { p with lastMessageId := some r.id, lastMessageDate := some r.content.date }
      | none => p) fun p => by split <;> rfl }

/-- `_UNREAD_COUNTS_SQL`, for one peer and what is read of it. -/
def unreadCount (peerId readId : Nat) : Nat :=
  (db.refs.rows.filter fun r =>
    r.peerId == peerId && decide (readId < r.id) && r.content.authorId != userId).length

/-- `ReadState.last_message_id`; the row is made when it is not there. -/
def readId (peerId : Nat) : Nat :=
  ((db.readStates.find? fun state => state.ownerId == userId && state.peerId == peerId).map
    ReadState.lastMessageId).getD 0

def unreadReactions (peerId : Nat) : Nat :=
  (db.refs.rows.filter fun r =>
    r.peerId == peerId && r.content.authorId == userId && r.content.authorReactionsUnread).length

/-- `make_id_from` of the chat or the channel. -/
def unreadTargetId (peer : Peer) : Option Nat :=
  match peer.type with
  | .chat chatId => some (chatId * 2)
  | .channel channelId => some (channelId * 2 + 1)
  | _ => none

def unreadMentions (peer : Peer) : Nat :=
  match unreadTargetId peer with
  | none => 0
  | some target => (db.mentions.filter fun m =>
    m.userId == userId && m.unreadTargetId == some target).length

structure ReadInfo where
  inReadMaxId : Nat
  outReadMaxId : Nat
  unread : Nat
  reactions : Nat
  mentions : Nat
  deriving DecidableEq, Repr

def getInOutIdsAndUnread (peer : Peer) : ReadInfo :=
  let unread := db.unreadCount userId peer.id (db.readId userId peer.id)
  ⟨db.readId userId peer.id, peer.outMaxReadId, unread, db.unreadReactions userId peer.id,
    if unread = 0 then 0 else db.unreadMentions userId peer⟩

def getInOutIdsAndUnreadBulk (peers : List Peer) : List ReadInfo :=
  let fetch := peers.any fun p => decide (db.readId userId p.id < p.lastMessageId.getD 0)
  let unread := fun (p : Peer) =>
    if fetch then db.unreadCount userId p.id (db.readId userId p.id) else 0
  -- The mentions are counted for the chats of the peers that have something unread.
  let targets := (peers.filter fun p => decide (0 < unread p)).filterMap unreadTargetId
  peers.map fun p =>
    ⟨db.readId userId p.id, p.outMaxReadId, unread p, db.unreadReactions userId p.id,
      if (unreadTargetId p).any fun target => targets.contains target then
        db.unreadMentions userId p else 0⟩

/-- The rows of `Dialog` of a user, with their peers. -/
def ownDialogs : List (Dialog × Peer) :=
  (db.dialogs.filter fun d => d.ownerId == userId).filterMap fun d =>
    (db.peers.get d.peerId).map fun p => (d, p)

structure TLDialog where
  peerId : Nat
  pinned : Bool
  folderId : Nat
  topMessage : Nat
  readInfo : ReadInfo
  deriving DecidableEq, Repr

def formatDialogs (dialogs : List (Dialog × Peer)) : List TLDialog × List MessageRef :=
  let messages := dialogs.filterMap fun item => item.2.lastMessageId.bind fun id => db.refs.get id
  ((dialogs.zip (db.getInOutIdsAndUnreadBulk userId (dialogs.map Prod.snd))).map
      fun (item, info) =>
        let top := (messages.find? fun r => r.peerId == item.2.id).map MessageRef.id
        ⟨item.2.id, item.1.pinned, item.1.folderId,
          top.getD (item.2.lastMessageId.getD 0), info⟩,
    messages)

/-- The arguments of `get_dialogs_internal`; `offsetPeer` is the row of the peer. -/
structure GetDialogs where
  offsetId : Nat
  offsetDate : Int
  limit : Int
  offsetPeerId : Option Nat
  folderId : Option Nat
  excludePinned : Bool
  deriving DecidableEq, Repr

def GetDialogs.offsets (a : GetDialogs) : Nat × Option Nat :=
  match a.offsetPeerId with
  | none => (a.offsetId, none)
  | some peerId =>
    match db.peers.get peerId with
    | none => (0, none)
    | some p =>
      match p.lastMessageId with
      | none => (0, some p.id)
      | some last =>
        (if a.offsetId = 0 ∨ last < a.offsetId then last else a.offsetId, none)

def getDialogs (a : GetDialogs) : List TLDialog × List MessageRef :=
  let limit := if 100 < a.limit ∨ a.limit < 1 then 100 else a.limit.toNat
  let (offsetId, offsetPeer) := a.offsets db
  let rows := (db.ownDialogs userId).filter fun (d, p) =>
    (offsetPeer.all fun id => decide (d.peerId < id)) &&
      (offsetId == 0 || p.lastMessageId.any fun last => decide (last < offsetId)) &&
      (!a.excludePinned || !d.pinned) &&
      (a.offsetDate == 0 || p.lastMessageDate.any fun date => decide (date < a.offsetDate)) &&
      (a.folderId.all fun folder => d.folderId == folder) && d.visible
  let order := fun (x y : Dialog × Peer) =>
    y.2.lastMessageId.getD 0 < x.2.lastMessageId.getD 0 ∨
      (y.2.lastMessageId.getD 0 = x.2.lastMessageId.getD 0 ∧ y.1.id ≤ x.1.id)
  db.formatDialogs userId ((rows.insertionSort order).take limit)

def getPeerDialogs (peerIds : List Nat) : List TLDialog × List MessageRef :=
  db.formatDialogs userId ((db.ownDialogs userId).filter fun (d, _) =>
    peerIds.contains d.peerId && d.visible)

end Db

end Dialogs

end Piltover.History
