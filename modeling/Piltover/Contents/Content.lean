/- source: piltover/db/models/message_content.py, piltover/db/models/message_fwd_header.py,
     piltover/db/models/message_ref.py, piltover/db/models/peer.py, piltover/db/enums.py
   digest: Contents of messages, the references to them, and the headers and copies of a forward. -/

import Piltover.Failure
import Mathlib.Data.List.Forall2
import Mathlib.Tactic.Common

set_option autoImplicit false

namespace Piltover.Contents

structure User where
  id : Nat
  firstName : String
  bot : Bool
  deriving DecidableEq, Repr

structure Chat where
  id : Nat
  noForwards : Bool
  deriving DecidableEq, Repr

structure Channel where
  id : Nat
  name : String
  channel : Bool
  supergroup : Bool
  signatures : Bool
  noForwards : Bool
  deriving DecidableEq, Repr

/-- What a peer stands for; the type of the peer is the constructor. -/
inductive Target
  | self
  | user (userId : Nat)
  | chat (chat : Chat)
  | channel (channel : Channel)
  deriving DecidableEq, Repr

/-- A conversation as its owner has it; the peer of a channel has no owner. -/
structure Peer where
  id : Nat
  ownerId : Option Nat
  target : Target
  blocked : Bool
  /-- The conversation of a user with themselves has a type of its own. -/
  apart : ∀ userId, target = .user userId → ownerId ≠ some userId
  deriving DecidableEq, Repr

namespace Peer

def channel (self : Peer) : Option Channel :=
  match self.target with
  | .channel c => some c
  | _ => none

/-- `peer.user_id`, which a conversation with oneself has as well. -/
def userId (self : Peer) : Option Nat :=
  match self.target with
  | .self => self.ownerId
  | .user userId => some userId
  | _ => none

def chatId (self : Peer) : Option Nat :=
  match self.target with
  | .chat c => some c.id
  | _ => none

def channelId (self : Peer) : Option Nat := self.channel.map Channel.id

def isSelf (self : Peer) : Bool := self.target == .self

def noForwards (self : Peer) : Bool :=
  match self.target with
  | .chat c => c.noForwards
  | .channel c => c.noForwards
  | _ => false

def canSeeReactionsList (self : Peer) : Bool :=
  match self.target with
  | .channel c => c.supergroup
  | _ => true

end Peer

inductive MessageType
  | regular | servicePinMessage | serviceChatCreate | serviceChatEditTitle | serviceChatEditPhoto
  | serviceChatUserAdd | serviceChatUserDel | serviceChatUserInviteJoin | serviceChatUserRequestJoin
  | serviceChannelCreate | serviceChatUpdateWallpaper | serviceChatUpdateTtl
  | serviceChatMigrateTo | serviceChatMigrateFrom | servicePhoneCall | serviceTopicCreate
  | serviceTopicEdit | serviceGroupCall | servicePayment | scheduled
  deriving DecidableEq, Repr

/-- The action of a service message, as its `extra_info` stores it: the fields that name users,
chats and channels, which have the sign and offset of their kind taken off. -/
inductive Action
  | chatCreate (users : List Nat)
  | chatAddUser (users : List Nat)
  | chatDeleteUser (userId : Nat)
  | chatJoinedByLink (inviterId : Nat)
  | chatMigrateTo (channelId : Nat)
  | channelMigrateFrom (chatId : Nat)
  | inviteToGroupCall (users : List Nat)
  | other
  deriving DecidableEq, Repr

/-- An entity of a text: a mention that names a user, or one that names nobody. -/
inductive Entity
  | mentionName (userId : Nat)
  | other (tag : String)
  deriving DecidableEq, Repr

structure MessageFwdHeader where
  fromUser : Option Nat
  fromChat : Option Nat
  fromChannel : Option Nat
  fromName : String
  date : Int
  savedOut : Bool
  channelPostId : Option Nat
  channelPostAuthor : Option String
  savedPeer : Option Peer
  savedId : Option Nat
  savedFrom : Option Nat
  savedName : Option String
  savedDate : Option Int
  deriving DecidableEq, Repr

/-- The fields that `MessageContent.create` does not get have their defaults. -/
structure MessageContent where
  id : Nat
  message : Option String := none
  date : Int
  editDate : Option Int := none
  type : MessageType := .regular
  entities : List Entity := []
  extraInfo : Option Action := none
  mediaGroupId : Option Nat := none
  channelPost : Bool := false
  anonymous : Bool := false
  postAuthor : Option String := none
  scheduledDate : Option Int := none
  ttlPeriodDays : Option Nat := none
  replyMarkup : Option String := none
  noForwards : Bool := false
  author : Option User := none
  media : Option Nat := none
  fwdHeader : Option MessageFwdHeader := none
  postInfo : Option Nat := none
  viaBot : Option Nat := none
  sendAsChannelId : Option Nat := none
  canSeeReactionsList : Bool := false
  deriving DecidableEq, Repr

/-- A message as one peer has it. -/
structure MessageRef where
  id : Nat
  peer : Peer
  content : MessageContent
  randomId : Option Int := none
  randomUserId : Option Nat := none
  pinned : Bool := false
  replyTo : Option Nat := none
  isDiscussion : Bool := false
  deriving DecidableEq, Repr

/-! ### Headers of forwarded messages -/

/-- Where a message comes from: `from_user`, `from_chat`, `from_channel`, `from_name`,
`channel_post_id` and `channel_post_author`. -/
structure Origin where
  fromUser : Option Nat
  fromChat : Option Nat
  fromChannel : Option Nat
  fromName : String
  channelPostId : Option Nat
  channelPostAuthor : Option String
  deriving DecidableEq, Repr

def MessageFwdHeader.origin (header : MessageFwdHeader) : Origin :=
  ⟨header.fromUser, header.fromChat, header.fromChannel, header.fromName, header.channelPostId,
    header.channelPostAuthor⟩

/-- `None` has no attributes. -/
def present {α : Type} (value : Option α) : Except Failure α := orRaise value .other

/-- The origin of a message. `privacyRules` says whose rules let the user who forwards see them as
the author. -/
def origin (privacyRules : Nat → Bool) (ref : MessageRef) : Except Failure Origin :=
  match ref.content.fwdHeader with
  | some header => .ok header.origin
  | none =>
    if ref.content.channelPost then
      (present ref.peer.channel).map fun channel =>
        ⟨none, none, some channel.id, channel.name, some ref.id, ref.content.postAuthor⟩
    else
      (present ref.content.author).map fun author =>
        ⟨if privacyRules author.id then some author.id else none, none, none, author.firstName,
          none, none⟩

def savedPeer (privacyRules : Nat → Bool) (ref : MessageRef) : Option Peer :=
  match ref.peer.target with
  | .user userId => if privacyRules userId then some ref.peer else none
  | _ => some ref.peer

def savedFrom (toSelf : Bool) (ref : MessageRef) : Except Failure (Option User) :=
  if toSelf then (present ref.content.author).map some else .ok none

/-- What the columns take: names of 64 characters at most, signatures of 128. -/
def Fits (name : String) (signature : Option String) : Prop :=
  name.length ≤ 64 ∧ ∀ s ∈ signature, s.length ≤ 128

instance (name : String) (signature : Option String) : Decidable (Fits name signature) :=
  inferInstanceAs (Decidable (_ ∧ _))

/-- The validators of the columns, which run when the header is saved. -/
def MessageFwdHeader.create (header : MessageFwdHeader) : Except Failure MessageFwdHeader :=
  if Fits header.fromName header.channelPostAuthor ∧ ∀ name ∈ header.savedName, name.length ≤ 64 then
    .ok header
  else .error .other

/-- One header of `create_fwd_header_bulk`. -/
def createFwdHeader (privacyRules : Nat → Bool) (toSelf : Bool) (ref : MessageRef) :
    Except Failure MessageFwdHeader := do
  let origin ← origin privacyRules ref
  let author ← savedFrom toSelf ref
  MessageFwdHeader.create {
    fromUser := origin.fromUser
    fromChat := origin.fromChat
    fromChannel := origin.fromChannel
    fromName := origin.fromName
    date := (ref.content.fwdHeader.map MessageFwdHeader.date).getD ref.content.date
    savedOut := true
    channelPostId := origin.channelPostId
    channelPostAuthor := origin.channelPostAuthor
    savedPeer := if toSelf then savedPeer privacyRules ref else none
    savedId := if toSelf then some ref.id else none
    savedFrom := author.map User.id
    savedName := author.map User.firstName
    savedDate := if toSelf then some ref.content.date else none }

def createFwdHeaderBulk (privacyRules : Nat → Bool) (toSelf : Bool) (refs : List MessageRef) :
    Except Failure (List MessageFwdHeader) :=
  refs.mapM (createFwdHeader privacyRules toSelf)

/-- The message says where it comes from, in names that the columns take: it has a header, or it is
a post of a channel, or it has an author; for the saved messages it has an author in any case. -/
def Credited (toSelf : Bool) (ref : MessageRef) : Prop :=
  (match ref.content.fwdHeader with
    | some header => Fits header.fromName header.channelPostAuthor
    | none =>
      if ref.content.channelPost = true then
        ∃ channel ∈ ref.peer.channel, Fits channel.name ref.content.postAuthor
      else ∃ author ∈ ref.content.author, author.firstName.length ≤ 64) ∧
    (toSelf = true → ∃ author ∈ ref.content.author, author.firstName.length ≤ 64)

section Headers

variable {privacyRules : Nat → Bool} {toSelf : Bool} {ref : MessageRef}

theorem exists_map_present {α β : Type} {value : Option α} {f : α → β} {p : β → Prop} :
    (∃ b, (present value).map f = .ok b ∧ p b) ↔ ∃ a ∈ value, p (f a) := by
  cases value with
  | none => exact ⟨fun ⟨_, made, _⟩ => (by cases made), fun ⟨_, known, _⟩ => (by cases known)⟩
  | some a =>
    constructor
    · rintro ⟨b, made, holds⟩
      cases made
      exact ⟨a, rfl, holds⟩
    · rintro ⟨b, same, holds⟩
      cases same
      exact ⟨_, rfl, holds⟩

theorem unrefused_origin : Unrefused (origin privacyRules ref) := by
  unfold origin
  split
  · exact unrefused_ok _
  · split <;> exact unrefused_map (unrefused_orRaise _)

variable (privacyRules) in
theorem exists_origin :
    (∃ o, origin privacyRules ref = .ok o ∧ Fits o.fromName o.channelPostAuthor) ↔
      match ref.content.fwdHeader with
      | some header => Fits header.fromName header.channelPostAuthor
      | none =>
        if ref.content.channelPost = true then
          ∃ channel ∈ ref.peer.channel, Fits channel.name ref.content.postAuthor
        else ∃ author ∈ ref.content.author, author.firstName.length ≤ 64 := by
  unfold origin
  cases ref.content.fwdHeader with
  | some header =>
    exact ⟨fun ⟨_, made, fits⟩ => (by cases made; exact fits), fun fits => ⟨_, rfl, fits⟩⟩
  | none =>
    dsimp only
    split
    · exact exists_map_present
    · rw [exists_map_present]
      exact exists_congr fun author => and_congr_right fun _ => and_iff_left nofun

theorem unrefused_savedFrom : Unrefused (savedFrom toSelf ref) := by
  unfold savedFrom
  split
  · exact unrefused_map (unrefused_orRaise _)
  · exact unrefused_ok none

theorem exists_savedFrom :
    (∃ author, savedFrom toSelf ref = .ok author ∧
        ∀ name ∈ author.map User.firstName, name.length ≤ 64) ↔
      (toSelf = true → ∃ author ∈ ref.content.author, author.firstName.length ≤ 64) := by
  unfold savedFrom
  cases toSelf with
  | true => simp [exists_map_present]
  | false => simp

theorem unrefused_create (header : MessageFwdHeader) : Unrefused header.create := by
  unfold MessageFwdHeader.create
  split
  · exact unrefused_ok header
  · exact fun _ _ refused => by cases refused

theorem create_eq_ok {header saved : MessageFwdHeader} : header.create = .ok saved ↔
    (Fits header.fromName header.channelPostAuthor ∧
      ∀ name ∈ header.savedName, name.length ≤ 64) ∧ header = saved := by
  unfold MessageFwdHeader.create
  split
  · rename_i fits
    exact ⟨fun same => ⟨fits, Except.ok.inj same⟩, fun ⟨_, same⟩ => congrArg Except.ok same⟩
  · rename_i long
    exact ⟨fun same => (by cases same), fun ⟨fits, _⟩ => absurd fits long⟩

theorem unrefused_createFwdHeader : Unrefused (createFwdHeader privacyRules toSelf ref) := by
  rw [createFwdHeader, unrefused_bind_iff]
  refine ⟨unrefused_origin, fun o _ => ?_⟩
  rw [unrefused_bind_iff]
  exact ⟨unrefused_savedFrom, fun author _ => unrefused_create _⟩

variable (privacyRules) in
theorem exists_createFwdHeader :
    (∃ header, createFwdHeader privacyRules toSelf ref = .ok header) ↔ Credited toSelf ref := by
  rw [Credited, ← exists_origin privacyRules, ← exists_savedFrom]
  simp only [createFwdHeader, bind_eq_ok (origin privacyRules ref),
    bind_eq_ok (savedFrom toSelf ref), create_eq_ok]
  constructor
  · rintro ⟨header, o, found, author, saved, ⟨fits, named⟩, made⟩
    exact ⟨⟨o, found, fits⟩, author, saved, named⟩
  · rintro ⟨⟨o, found, fits⟩, author, saved, named⟩
    exact ⟨_, o, found, author, saved, ⟨fits, named⟩, rfl⟩

variable {refs : List MessageRef}

theorem createFwdHeaderBulk_length {headers : List MessageFwdHeader}
    (made : createFwdHeaderBulk privacyRules toSelf refs = .ok headers) :
    headers.length = refs.length := by
  induction refs generalizing headers with
  | nil =>
    cases made
    rfl
  | cons ref refs ih =>
    rw [createFwdHeaderBulk, List.mapM_cons, bind_eq_ok] at made
    obtain ⟨header, -, rest⟩ := made
    rw [bind_eq_ok] at rest
    obtain ⟨headers, others, joined⟩ := rest
    cases joined
    rw [List.length_cons, List.length_cons, ih others]

theorem unrefused_createFwdHeaderBulk :
    Unrefused (createFwdHeaderBulk privacyRules toSelf refs) := by
  induction refs with
  | nil => exact unrefused_ok []
  | cons ref refs ih =>
    rw [createFwdHeaderBulk, List.mapM_cons, unrefused_bind_iff]
    refine ⟨unrefused_createFwdHeader, fun header _ => ?_⟩
    rw [unrefused_bind_iff]
    exact ⟨ih, fun headers _ => unrefused_ok _⟩

variable (privacyRules) in
theorem exists_createFwdHeaderBulk :
    (∃ headers, createFwdHeaderBulk privacyRules toSelf refs = .ok headers) ↔
      ∀ ref ∈ refs, Credited toSelf ref := by
  induction refs with
  | nil => exact ⟨fun _ _ absent => (by cases absent), fun _ => ⟨[], rfl⟩⟩
  | cons ref refs ih =>
    rw [List.forall_mem_cons, ← ih, ← exists_createFwdHeader privacyRules]
    rw [createFwdHeaderBulk, List.mapM_cons, createFwdHeaderBulk]
    simp only [bind_eq_ok (createFwdHeader privacyRules toSelf ref),
      bind_eq_ok (List.mapM (createFwdHeader privacyRules toSelf) refs)]
    constructor
    · rintro ⟨all, header, made, headers, others, -⟩
      exact ⟨⟨header, made⟩, headers, others⟩
    · rintro ⟨⟨header, made⟩, headers, others⟩
      exact ⟨_, header, made, headers, others, rfl⟩

end Headers

/-! ### Copies -/

def MessageContent.keepsText (content : MessageContent) (dropCaptions : Bool) : Bool :=
  content.media.isNone || !dropCaptions

/-- What `clone_forward` and `clone_forward_bulk` are told about the copies. -/
structure CloneForward where
  newAuthor : Option User
  dropCaptions : Bool
  dropAuthor : Bool
  isForward : Bool
  noForwards : Bool
  newChannelAuthorId : Option Nat
  channelPost : Option Bool
  postAuthor : Option String
  anonymous : Option Bool
  canSeeReactionsList : Bool
  now : Int
  deriving DecidableEq, Repr

namespace CloneForward

variable (args : CloneForward)

/-- What the copy takes from the original, unless the author is dropped. -/
def inherited {α : Type} (given own : Option α) : Option α :=
  given.or (if args.dropAuthor then none else own)

def copyOf (id : Nat) (content : MessageContent) (fwdHeader : Option MessageFwdHeader)
    (postInfo mediaGroupId : Option Nat) (anonymous channelPost : Bool) : MessageContent where
  id := id
  message := if content.keepsText args.dropCaptions then content.message else none
  entities := if content.keepsText args.dropCaptions then content.entities else []
  date := if args.isForward then args.now else content.date
  editDate := if args.isForward then none else content.editDate
  type := content.type
  author := args.newAuthor.or content.author
  media := content.media
  fwdHeader := fwdHeader
  mediaGroupId := mediaGroupId
  channelPost := channelPost
  postAuthor := args.inherited args.postAuthor content.postAuthor
  postInfo := args.inherited postInfo content.postInfo
  anonymous := anonymous
  noForwards := args.noForwards
  viaBot := content.viaBot
  sendAsChannelId := args.newChannelAuthorId.or content.sendAsChannelId
  canSeeReactionsList := args.canSeeReactionsList

/-- One copy; columns that are not nullable refuse `None`. -/
def clone (id : Nat) (content : MessageContent) (fwdHeader : Option MessageFwdHeader)
    (postInfo mediaGroupId : Option Nat) : Except Failure MessageContent := do
  let anonymous ← orRaise (args.inherited args.anonymous (some content.anonymous)) .other
  let channelPost ← orRaise (args.inherited args.channelPost (some content.channelPost)) .other
  .ok (args.copyOf id content fwdHeader postInfo mediaGroupId anonymous channelPost)

/-- `clone_forward_bulk`: the copies get their identifiers in the order of the originals. -/
def cloneBulk : Nat → List MessageContent → List (Option MessageFwdHeader) → List (Option Nat) →
    List (Option Nat) → Except Failure (List MessageContent)
  | id, content :: contents, header :: headers, info :: infos, group :: groups => do
      let copy ← args.clone id content header info group
      let copies ← cloneBulk (id + 1) contents headers infos groups
      .ok (copy :: copies)
  | _, _, _, _, _ => .ok []

end CloneForward

/-- A copy has the type, the media and the bot of the original, and its text and entities where
they stay. -/
structure IsCopy (dropCaptions : Bool) (original copy : MessageContent) : Prop where
  type : copy.type = original.type
  media : copy.media = original.media
  viaBot : copy.viaBot = original.viaBot
  message : copy.message = if original.keepsText dropCaptions then original.message else none
  entities : copy.entities = if original.keepsText dropCaptions then original.entities else []

section Clones

variable {args : CloneForward}

/-- The caller says whether the copies are posts and whether they are anonymous. -/
def CloneForward.Decided (args : CloneForward) : Prop :=
  args.channelPost.isSome = true ∧ args.anonymous.isSome = true

theorem clone_spec (decided : args.Decided) (id : Nat) (content : MessageContent)
    (fwdHeader : Option MessageFwdHeader) (postInfo mediaGroupId : Option Nat) :
    ∃ copy, args.clone id content fwdHeader postInfo mediaGroupId = .ok copy ∧
      copy.id = id ∧ IsCopy args.dropCaptions content copy := by
  obtain ⟨post, given⟩ := Option.isSome_iff_exists.mp decided.1
  obtain ⟨hidden, told⟩ := Option.isSome_iff_exists.mp decided.2
  refine ⟨args.copyOf id content fwdHeader postInfo mediaGroupId hidden post, ?_, rfl,
    ⟨rfl, rfl, rfl, rfl, rfl⟩⟩
  rw [CloneForward.clone, given, told, CloneForward.inherited, CloneForward.inherited,
    Option.some_or, Option.some_or]
  rfl

theorem cloneBulk_spec (decided : args.Decided) (contents : List MessageContent) :
    ∀ (first : Nat) (headers : List (Option MessageFwdHeader)) (infos groups : List (Option Nat)),
      headers.length = contents.length → infos.length = contents.length →
      groups.length = contents.length →
      ∃ copies, args.cloneBulk first contents headers infos groups = .ok copies ∧
        copies.map MessageContent.id = List.range' first contents.length ∧
        List.Forall₂ (IsCopy args.dropCaptions) contents copies := by
  induction contents with
  | nil =>
    intro first headers infos groups _ _ _
    exact ⟨[], by rw [CloneForward.cloneBulk]; simp, rfl, .nil⟩
  | cons content contents ih =>
    intro first headers infos groups sameHeaders sameInfos sameGroups
    obtain ⟨header, headers, rfl⟩ := List.exists_cons_of_length_eq_add_one sameHeaders
    obtain ⟨info, infos, rfl⟩ := List.exists_cons_of_length_eq_add_one sameInfos
    obtain ⟨group, groups, rfl⟩ := List.exists_cons_of_length_eq_add_one sameGroups
    obtain ⟨copy, cloned, numbered, alike⟩ :=
      clone_spec decided first content header info group
    obtain ⟨copies, rest, ids, others⟩ := ih (first + 1) headers infos groups
      (Nat.succ.inj sameHeaders) (Nat.succ.inj sameInfos) (Nat.succ.inj sameGroups)
    refine ⟨copy :: copies, ?_, ?_, .cons alike others⟩
    · rw [CloneForward.cloneBulk, cloned]
      simp only [bind_eq_ok (args.cloneBulk (first + 1) contents headers infos groups),
        bind_eq_ok (Except.ok copy)]
      exact ⟨copy, rfl, copies, rest, rfl⟩
    · rw [List.map_cons, List.length_cons, List.range'_succ, numbered, ids]

end Clones

end Piltover.Contents
