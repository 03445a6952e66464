/- source: piltover/app/handlers/messages/history.py, piltover/app/handlers/channels.py,
     piltover/db/models/peer.py, piltover/db/models/channel.py, piltover/db/models/chat_base.py
   digest: Which messages of a private channel the reading requests return to a user. -/

import Piltover.Failure
import Piltover.History.Queries

set_option autoImplicit false

namespace Piltover.History

open Piltover.Foundation
open Piltover.Channels (AccessHash)

structure User where
  id : Nat
  deleted : Bool
  deriving DecidableEq, Repr

structure Chat where
  id : Nat
  deleted : Bool
  deriving DecidableEq, Repr

structure Username where
  username : List Char
  channelId : Option Nat
  deriving DecidableEq, Repr

/-- The messages and what a request can name. -/
structure World extends Db where
  users : Table User.id
  chats : Table Chat.id
  usernames : List Username

inductive InputPeer
  | empty
  | self
  | user (userId : Nat) (hash : AccessHash)
  | chat (chatId : Nat)
  | channel (channelId : Nat) (hash : AccessHash)
  deriving DecidableEq, Repr

section Requests

structure GetHistory where
  peer : InputPeer
  offsetId : Nat
  addOffset : Int
  limit : Int
  maxId : Nat
  minId : Nat
  deriving DecidableEq, Repr

structure Search where
  peer : InputPeer
  q : List Char
  fromId : Option InputPeer
  savedPeerId : Option InputPeer
  topMsgId : Nat
  filter : MessagesFilter
  minDate : Int
  maxDate : Int
  offsetId : Nat
  addOffset : Int
  limit : Int
  maxId : Nat
  minId : Nat
  deriving DecidableEq, Repr

inductive InputMessage
  | id (id : Nat)
  | replyTo (id : Nat)
  | other
  deriving DecidableEq, Repr

structure GetMessages where
  channelId : Nat
  hash : AccessHash
  id : List InputMessage
  deriving DecidableEq, Repr

end Requests

namespace World

variable (w : World) (userId : Nat)

def participant (channelId : Nat) : Option ChatParticipant :=
  w.participants.get (userId, channelId)

/-- `Channel.from_input`, and the same check in `Peer.query_from_input_peer`. -/
def channelFromInput (channelId : Nat) (hash : AccessHash) : Option Channel :=
  (w.channels.get channelId).filter fun channel => !channel.deleted &&
    hash.reaches ((w.participant userId channelId).map ChatParticipant.toChatParticipant)

def ownPeer (type : PeerType) : Option Peer :=
  w.peers.rows.find? fun p => p.ownerId == some userId && p.type == type

def channelPeer (channelId : Nat) : Option Peer :=
  w.peers.rows.find? fun p => p.type == .channel channelId

/-- `Peer.from_input_peer_raise`; the peer of a known user is made when it is not there. -/
def fromInputPeerRaise (input : InputPeer) : Except Failure Peer :=
  let invalid := Failure.rpc 400 "PEER_ID_INVALID"
  let self := orRaise (w.ownPeer userId .self) .other
  match input with
  | .empty => .error invalid
  | .self => self
  | .user target hash =>
    if target = userId then self
    else
      let user := w.users.get target
      let failure := if user.any User.deleted then .rpc 400 "INPUT_USER_DEACTIVATED" else invalid
      if hash = .valid then
        match w.ownPeer userId (.user target) with
        | some p => .ok p
        | none => orRaise ((user.filter fun user => !user.deleted).map fun _ =>
          ⟨w.peers.nextKey, some userId, .user target, none, none, 0⟩) failure
      else orRaise ((w.ownPeer userId (.user target)).filter fun _ => user.any User.deleted) failure
  | .chat chatId => orRaise ((w.ownPeer userId (.chat chatId)).filter fun _ =>
    (w.chats.get chatId).any fun chat => !chat.deleted) invalid
  | .channel channelId hash => orRaise ((w.channelFromInput userId channelId hash).bind fun _ =>
    w.channelPeer channelId) invalid

def getHistory (request : GetHistory) : Except Failure (List MessageRef) :=
  if request.peer = .empty then .ok []
  else do
    let peer ← w.fromInputPeerRaise userId request.peer
    .ok (w.getMessagesQueryInternal userId (.peer peer)
      ⟨request.maxId, request.minId, request.offsetId, request.limit, request.addOffset, 0, 0, 0,
        none, none, none, false, false, 0, 0⟩)

/-- The peer of a search; without one it goes through all peers of the user. -/
def searchScope (request : Search) : Except Failure Scope :=
  if request.peer = .empty then .ok .global
  else (w.fromInputPeerRaise userId request.peer).map Scope.peer

/-- `saved_peer`, among the saved messages of the user. -/
def searchSavedPeer (request : Search) : Scope → Except Failure (Option Nat)
  | .global => .ok none
  | .peer peer =>
    match peer.type, request.savedPeerId with
    | .self, some saved => (w.fromInputPeerRaise userId saved).map fun p => some p.id
    | _, _ => .ok none

/-- `messages_search`. -/
def search (request : Search) : Except Failure (List MessageRef) := do
  let scope ← w.searchScope userId request
  let savedPeer ← w.searchSavedPeer userId request scope
  let fromUserId :=
    match request.fromId with
    | some (.user author _) => author
    | some .self => userId
    | _ => 0
  .ok (w.getMessagesQueryInternal userId scope
    ⟨request.maxId, request.minId, request.offsetId, request.limit, request.addOffset, fromUserId,
      request.minDate, request.maxDate, some request.q, some request.filter, savedPeer, false, false,
      0, request.topMsgId⟩)

/-- `peer__channel=channel`. -/
def inChannel (channelId : Nat) (r : MessageRef) : Bool :=
  (w.peers.get r.peerId).any fun p => p.type == .channel channelId

def getMessages (request : GetMessages) : Except Failure (List MessageRef) := do
  let channel ← orRaise (w.channelFromInput userId request.channelId request.hash)
    (.rpc 406 "CHANNEL_PRIVATE")
  -- The row is read also when the user has left.
  let participant := w.participant userId channel.id
  let banned := participant.any fun p => p.bannedRights &&& Channels.ChatBannedRights.viewMessages != 0
  let isPublic := channel.nojoinAllowView ||
    w.usernames.any fun u => u.channelId == some channel.id
  require (!((!isPublic && participant.isNone) || banned)) (.rpc 400 "CHAT_RESTRICTED")
  let ids := request.id.filterMap fun
    | .id id => some id
    | _ => none
  let replyIds := request.id.filterMap fun
    | .replyTo id => some id
    | _ => none
  let replied := (w.refs.rows.filter fun s =>
    w.inChannel channel.id s && replyIds.contains s.id).filterMap MessageRef.replyToId
  .ok (w.refs.rows.filter fun r => (ids.contains r.id || replied.contains r.id) &&
    w.inChannel channel.id r && w.isAvailableIn userId channel participant r)

end World

section Claims

variable (w : World) (userId : Nat) (channel : Channel)

/-- Banned from viewing, by the row of the user, whether the user has left or not. -/
def World.Banned (channelId : Nat) : Prop :=
  ∃ p, w.participant userId channelId = some p ∧
    p.bannedRights &&& Channels.ChatBannedRights.viewMessages ≠ 0

def World.Departed (channelId : Nat) : Prop :=
  ∃ p, w.participant userId channelId = some p ∧ p.left = true

/-- The same without the row of the user. -/
def World.without (channelId : Nat) : World :=
  { w with participants := w.participants.remove fun p => p.key == (userId, channelId) }

/-- Whoever is banned reads nothing, whoever has left is no participant. -/
structure ReadsNothing : Prop where
  history : w.Banned userId channel.id → ∀ request messages,
    w.getHistory userId request = .ok messages →
      ∀ r ∈ messages, w.inChannel channel.id r = false
  search : w.Banned userId channel.id → ∀ request messages,
    w.search userId request = .ok messages → ∀ r ∈ messages, w.inChannel channel.id r = false
  messages : w.Banned userId channel.id → ∀ request messages,
    w.getMessages userId request = .ok messages → ∀ r ∈ messages, w.inChannel channel.id r = false
  departed : w.Departed userId channel.id → ∀ request : GetMessages,
    request.channelId = channel.id →
      w.getMessages userId request = (w.without userId channel.id).getMessages userId request
  viewing : ∀ p, w.participant userId channel.id = some p → p.left = true →
    (Channels.ChatOrChannel.channel channel.toChannel).canViewMessages (some p.toChatParticipant) =
      (Channels.ChatOrChannel.channel channel.toChannel).canViewMessages none

def World.Found (p : Peer) (r : MessageRef) : Prop :=
  r.content.type ≠ .scheduled ∨ ∃ filter query,
    w.messageFilterToQuery userId filter (some p) = some query ∧ query r = true

/-- A banned user has no message of the channel available, and whoever has left is banned. -/
structure ShutOut : Prop where
  nothing : w.Banned userId channel.id → ∀ r ∈ w.refs, ∀ p ∈ w.peers, p.id = r.peerId →
    p.type = .channel channel.id → w.isAvailable userId p r = true → ¬ w.Found userId p r
  banned : w.Departed userId channel.id → w.Banned userId channel.id

/-- The channel is stored with its one peer, which no user owns, and nobody but its members may
view it. -/
structure World.Private : Prop where
  stored : w.channels.get channel.id = some channel
  unowned : ∀ p ∈ w.peers, p.type = .channel channel.id → p.ownerId = none
  onePeer : ∀ p ∈ w.peers, ∀ q ∈ w.peers, p.type = .channel channel.id →
    q.type = .channel channel.id → p = q
  unnamed : ∀ u ∈ w.usernames, u.channelId ≠ some channel.id
  membersOnly : channel.nojoinAllowView = false

end Claims

section Resolution

variable {w : World} {userId : Nat}

theorem ownPeer_spec {type : PeerType} {p : Peer} (found : w.ownPeer userId type = some p) :
    p ∈ w.peers ∧ p.type = type := by
  have checked := List.find?_some found
  simp only [Bool.and_eq_true, beq_iff_eq] at checked
  exact ⟨List.mem_of_find?_eq_some found, checked.2⟩

/-- A request resolves to a peer that was made for it, or to a stored one; to the peer of a channel
only when it names the channel and the channel can be reached. -/
theorem fromInputPeerRaise_spec {input : InputPeer} {p : Peer}
    (found : w.fromInputPeerRaise userId input = .ok p) :
    p.id = w.peers.nextKey ∨ p ∈ w.peers ∧ ∀ channelId, p.type = .channel channelId →
      ∃ hash channel, input = .channel channelId hash ∧
        w.channelFromInput userId channelId hash = some channel := by
  have owned : ∀ type : PeerType, (∀ channelId, type ≠ .channel channelId) →
      w.ownPeer userId type = some p → p ∈ w.peers ∧ ∀ channelId, p.type = .channel channelId →
        ∃ hash channel, input = .channel channelId hash ∧
          w.channelFromInput userId channelId hash = some channel := by
    intro type other mine
    obtain ⟨listed, typed⟩ := ownPeer_spec mine
    exact ⟨listed, fun channelId same => absurd (typed.symm.trans same) (other channelId)⟩
  cases input with
  | empty => cases found
  | self => exact .inr (owned .self (by simp) (orRaise_eq_ok.mp found))
  | user target hash =>
    unfold World.fromInputPeerRaise at found
    dsimp only at found
    split at found
    · exact .inr (owned .self (by simp) (orRaise_eq_ok.mp found))
    · split at found
      · split at found
        · next mine =>
            cases found
            exact .inr (owned (.user target) (by simp) mine)
        · obtain ⟨_, -, rfl⟩ := Option.map_eq_some_iff.mp (orRaise_eq_ok.mp found)
          exact .inl rfl
      · have mine := (Option.filter_eq_some_iff.mp (orRaise_eq_ok.mp found)).1
        exact .inr (owned (.user target) (by simp) mine)
  | chat chatId =>
    have mine := (Option.filter_eq_some_iff.mp (orRaise_eq_ok.mp found)).1
    exact .inr (owned (.chat chatId) (by simp) mine)
  | channel channelId hash =>
    obtain ⟨channel, reached, peer⟩ := Option.bind_eq_some_iff.mp (orRaise_eq_ok.mp found)
    refine .inr ⟨List.mem_of_find?_eq_some peer, fun other typed => ?_⟩
    have named : p.type = .channel channelId := by simpa using List.find?_some peer
    rw [named] at typed
    cases typed
    exact ⟨hash, channel, rfl, reached⟩

theorem inChannel_iff {channelId : Nat} {r : MessageRef} :
    w.inChannel channelId r = true ↔ ∃ p ∈ w.peers, p.id = r.peerId ∧ p.type = .channel channelId := by
  unfold World.inChannel
  rw [Option.any_eq_true]
  constructor
  · rintro ⟨p, found, typed⟩
    obtain ⟨listed, named⟩ := Table.get_eq_some_iff.mp found
    exact ⟨p, listed, named, beq_iff_eq.mp typed⟩
  · rintro ⟨p, listed, named, typed⟩
    exact ⟨p, Table.get_eq_some_iff.mpr ⟨listed, named⟩, beq_iff_eq.mpr typed⟩

/-- What the messages of a reading request are looked for in. -/
def World.Looks (w : World) (userId : Nat) (input : InputPeer) (scope : Scope) : Prop :=
  scope = .global ∨ ∃ p, scope = .peer p ∧ w.fromInputPeerRaise userId input = .ok p

/-- A message of a channel that a query returns: the request has reached the channel, and the
message is available and found. -/
theorem reached_of_mem {channel : Channel} (closed : w.Private channel) {input : InputPeer}
    {scope : Scope} {a : Arguments} {r : MessageRef} (looks : w.Looks userId input scope)
    (mentions : a.onlyMentions = false) (listed : r ∈ w.getMessagesQueryInternal userId scope a)
    (inside : w.inChannel channel.id r = true) :
    (∃ hash reached, w.channelFromInput userId channel.id hash = some reached) ∧ r ∈ w.refs ∧
      ∃ p ∈ w.peers, p.id = r.peerId ∧ p.type = .channel channel.id ∧
        w.isAvailable userId p r = true ∧ w.Found userId p r := by
  obtain ⟨here, asked⟩ := mem_getMessagesQueryInternal listed
  simp only [Setting.matchesQuery, mentions, Bool.and_eq_true, Bool.false_eq_true, if_false]
    at asked
  obtain ⟨⟨⟨base, -⟩, -⟩, available⟩ := asked
  obtain ⟨q, stored, same, typed⟩ := inChannel_iff.mp inside
  rcases looks with rfl | ⟨p, rfl, resolved⟩
  · -- Among all peers of the user there is no channel.
    unfold Setting.baseQuery at base
    simp only [Bool.and_eq_true] at base
    have inScope : w.inScope userId .global r = true := base.1.1.1.1.1.1
    rw [Setting.inScope, Table.get_eq_some_iff.mpr ⟨stored, same⟩, Option.any_some,
      closed.unowned q stored typed] at inScope
    cases inScope
  · obtain ⟨named, found⟩ := typed_of_baseQuery base
    rcases fromInputPeerRaise_spec resolved with fresh | ⟨known, reached⟩
    · have below := w.peers.lt_nextKey stored
      omega
    · obtain rfl : q = p := Table.eq_of_key_eq stored known (same.trans named)
      obtain ⟨hash, reachedChannel, -, reaches⟩ := reached channel.id typed
      exact ⟨⟨hash, reachedChannel, reaches⟩, here, q, known, same, typed,
        by simpa [Scope.asPeer] using available, found⟩

theorem getHistory_spec {request : GetHistory} {messages : List MessageRef}
    (answered : w.getHistory userId request = .ok messages) :
    messages = [] ∨ ∃ scope a, w.Looks userId request.peer scope ∧ a.onlyMentions = false ∧
      messages = w.getMessagesQueryInternal userId scope a := by
  unfold World.getHistory at answered
  split at answered
  · cases answered
    exact .inl rfl
  · obtain ⟨p, resolved, done⟩ := (bind_eq_ok _).mp answered
    cases done
    exact .inr ⟨.peer p, _, .inr ⟨p, rfl, resolved⟩, rfl, rfl⟩

theorem search_spec {request : Search} {messages : List MessageRef}
    (answered : w.search userId request = .ok messages) :
    ∃ scope a, w.Looks userId request.peer scope ∧ a.onlyMentions = false ∧
      messages = w.getMessagesQueryInternal userId scope a := by
  unfold World.search at answered
  obtain ⟨scope, named, rest⟩ := (bind_eq_ok _).mp answered
  obtain ⟨savedPeer, -, done⟩ := (bind_eq_ok _).mp rest
  cases done
  refine ⟨scope, _, ?_, rfl, rfl⟩
  unfold World.searchScope at named
  split at named
  · cases named
    exact .inl rfl
  · cases resolved : w.fromInputPeerRaise userId request.peer with
    | error failure =>
      rw [resolved] at named
      cases named
    | ok p =>
      rw [resolved] at named
      cases named
      exact .inr ⟨p, rfl, resolved⟩

end Resolution

section Members

variable {w : World} {userId : Nat} {channel : Channel}

theorem id_of_stored {c : Channel} {channelId : Nat} {hash : AccessHash}
    (reached : w.channelFromInput userId channelId hash = some c) :
    w.channels.get channelId = some c ∧ c.deleted = false ∧ c.id = channelId := by
  obtain ⟨stored, live⟩ := Option.filter_eq_some_iff.mp reached
  simp only [Bool.and_eq_true, Bool.not_eq_true'] at live
  exact ⟨stored, live.1, (Table.get_eq_some_iff.mp stored).2⟩

/-- The answer to whoever may not read the channel. -/
def World.refusal (w : World) (userId : Nat) (request : GetMessages) :
    Except Failure (List MessageRef) := do
  let _ ← orRaise (w.channelFromInput userId request.channelId request.hash)
    (.rpc 406 "CHANNEL_PRIVATE")
  .error (.rpc 400 "CHAT_RESTRICTED")

theorem refusal_ne_ok {request : GetMessages} {messages : List MessageRef} :
    w.refusal userId request ≠ .ok messages := by
  intro answered
  obtain ⟨_, -, refused⟩ := orRaise_bind_eq_ok.mp answered
  cases refused

theorem getMessages_of_banned {request : GetMessages} (banned : w.Banned userId request.channelId) :
    w.getMessages userId request = w.refusal userId request := by
  obtain ⟨p, row, rights⟩ := banned
  unfold World.getMessages World.refusal
  cases reached : w.channelFromInput userId request.channelId request.hash with
  | none => rfl
  | some c =>
    obtain ⟨-, -, named⟩ := id_of_stored reached
    simp [orRaise, bind, Except.bind, named, row, rights, require]

theorem getMessages_of_absent (closed : w.Private channel) {request : GetMessages}
    (names : request.channelId = channel.id) (absent : w.participant userId channel.id = none) :
    w.getMessages userId request = w.refusal userId request := by
  have unnamed : (w.usernames.any fun u => u.channelId == some channel.id) = false := by
    rw [List.any_eq_false]
    intro u listed
    simpa using closed.unnamed u listed
  unfold World.getMessages World.refusal
  cases reached : w.channelFromInput userId request.channelId request.hash with
  | none => rfl
  | some c =>
    obtain ⟨stored, -, -⟩ := id_of_stored reached
    obtain rfl : channel = c := by
      rw [names, closed.stored] at stored
      exact Option.some.inj stored
    simp [orRaise, bind, Except.bind, absent, closed.membersOnly, unnamed, require]

theorem participant_without (userId : Nat) (channelId : Nat) :
    (w.without userId channelId).participant userId channelId = none := by
  unfold World.participant World.without
  rw [Table.get_remove]
  cases found : w.participants.get (userId, channelId) with
  | none => rfl
  | some p =>
    have key := (Table.get_eq_some_iff.mp found).2
    simp [Option.filter, key]

theorem channelFromInput_without {channelId : Nat} (departed : w.Departed userId channelId)
    (hash : AccessHash) : (w.without userId channelId).channelFromInput userId channelId hash =
      w.channelFromInput userId channelId hash := by
  obtain ⟨p, row, left⟩ := departed
  unfold World.channelFromInput
  rw [participant_without, row]
  cases hash with
  | zero => simp only [AccessHash.reaches, Option.map_some, Option.map_none, Option.any_some,
      Option.any_none, left, Bool.not_true]; rfl
  | valid => rfl
  | invalid => rfl

theorem private_without (closed : w.Private channel) :
    (w.without userId channel.id).Private channel :=
  ⟨closed.stored, closed.unowned, closed.onePeer, closed.unnamed, closed.membersOnly⟩

theorem getMessages_of_departed (closed : w.Private channel) (live : channel.deleted = false)
    (departed : w.Departed userId channel.id) (allowed : ¬ w.Banned userId channel.id) :
    w.getMessages userId ⟨channel.id, .valid, []⟩ = .ok [] := by
  obtain ⟨p, row, -⟩ := departed
  have rights : p.bannedRights &&& Channels.ChatBannedRights.viewMessages = 0 := by
    by_contra banned
    exact allowed ⟨p, row, banned⟩
  unfold World.getMessages World.channelFromInput
  rw [closed.stored]
  simp [Option.filter, live, AccessHash.reaches, orRaise, bind, Except.bind, row, rights, require]

theorem fromInputPeerRaise_valid (userId : Nat) (closed : w.Private channel) (live : channel.deleted = false)
    {p : Peer} (stored : p ∈ w.peers) (typed : p.type = .channel channel.id) :
    w.fromInputPeerRaise userId (.channel channel.id .valid) = .ok p := by
  have reached : w.channelFromInput userId channel.id .valid = some channel := by
    unfold World.channelFromInput
    rw [closed.stored]
    simp [Option.filter, live, AccessHash.reaches]
  have peer : w.channelPeer channel.id = some p := by
    unfold World.channelPeer
    cases found : w.peers.rows.find? fun p => p.type == .channel channel.id with
    | none => exact absurd (beq_iff_eq.mpr typed) (List.find?_eq_none.mp found p stored)
    | some q =>
      have same := closed.onePeer p stored q (List.mem_of_find?_eq_some found) typed
        (by simpa using List.find?_some found)
      rw [same]
  exact orRaise_eq_ok.mpr (Option.bind_eq_some_iff.mpr ⟨channel, reached, peer⟩)

def historyUpTo (channelId id : Nat) : GetHistory := ⟨.channel channelId .valid, 0, 0, 1, id + 1, 0⟩

def searchFor (channelId : Nat) (filter : MessagesFilter) (id : Nat) : Search :=
  ⟨.channel channelId .valid, [], none, none, 0, filter, 0, 0, 0, 0, 1, id + 1, 0⟩

theorem returned_of_found (closed : w.Private channel) (live : channel.deleted = false) {p : Peer}
    (stored : p ∈ w.peers) (typed : p.type = .channel channel.id) {r : MessageRef}
    (here : r ∈ w.refs) (named : p.id = r.peerId) (available : w.isAvailable userId p r = true)
    (found : w.Found userId p r) :
    (∃ request, w.getHistory userId request = .ok [r]) ∨
      ∃ request, w.search userId request = .ok [r] := by
  have resolved := fromInputPeerRaise_valid userId closed live stored typed
  rcases found with shown | ⟨filter, query, made, passes⟩
  · refine .inl ⟨historyUpTo channel.id r.id, ?_⟩
    unfold World.getHistory
    rw [if_neg (by simp [historyUpTo]), show (historyUpTo channel.id r.id).peer =
      .channel channel.id .valid from rfl, resolved]
    refine congrArg Except.ok (upTo_eq_singleton here ?_ rfl rfl ⟨rfl, rfl, rfl⟩)
    simp [historyUpTo, Setting.matchesQuery, Setting.baseQuery, Setting.typeQuery, Setting.inScope,
      Setting.filterQuery, Setting.rangeQuery, Scope.asPeer, named, available, shown]
  · refine .inr ⟨searchFor channel.id filter r.id, ?_⟩
    have scope : w.searchScope userId (searchFor channel.id filter r.id) = .ok (.peer p) := by
      unfold World.searchScope
      rw [if_neg (by simp [searchFor]), show (searchFor channel.id filter r.id).peer =
        .channel channel.id .valid from rfl, resolved]
      rfl
    have saved : w.searchSavedPeer userId (searchFor channel.id filter r.id) (.peer p) =
        .ok none := by
      unfold World.searchSavedPeer
      simp [searchFor]
    have looked : w.messageFilterToQuery userId filter (some p) = some query := made
    unfold World.search
    simp only [scope, saved, bind, Except.bind]
    refine congrArg Except.ok (upTo_eq_singleton here ?_ rfl rfl ⟨rfl, rfl, rfl⟩)
    simp [searchFor, Setting.matchesQuery, Setting.baseQuery, Setting.typeQuery, Setting.inScope,
      Setting.filterQuery, Setting.rangeQuery, Scope.asPeer, named, available, looked, passes]

theorem inChannel_of_getMessages {request : GetMessages} {messages : List MessageRef}
    (answered : w.getMessages userId request = .ok messages) {r : MessageRef}
    (listed : r ∈ messages) : w.inChannel request.channelId r = true := by
  unfold World.getMessages at answered
  obtain ⟨c, reached, rest⟩ := orRaise_bind_eq_ok.mp answered
  obtain ⟨-, -, named⟩ := id_of_stored reached
  obtain ⟨-, done⟩ := check_bind_eq_ok.mp rest
  cases done
  obtain ⟨-, passes⟩ := List.mem_filter.mp listed
  simp only [Bool.and_eq_true, named] at passes
  exact passes.1.2

theorem inChannel_unique {r : MessageRef} {first second : Nat}
    (one : w.inChannel first r = true) (two : w.inChannel second r = true) : first = second := by
  obtain ⟨p, stored, named, typed⟩ := inChannel_iff.mp one
  obtain ⟨q, stored', named', typed'⟩ := inChannel_iff.mp two
  obtain rfl := Table.eq_of_key_eq stored stored' (named.trans named'.symm)
  rw [typed] at typed'
  cases typed'
  rfl

theorem getMessages_of_unreached {request : GetMessages}
    (unreached : w.channelFromInput userId request.channelId request.hash = none) :
    w.getMessages userId request = w.refusal userId request := by
  unfold World.getMessages World.refusal
  rw [unreached]
  rfl

end Members

/-- Who is banned from a private channel, or has left it, reads nothing exactly when nothing is
there for the banned and everyone who has left is banned. -/
theorem readsNothing_iff {w : World} {userId : Nat} {channel : Channel}
    (closed : w.Private channel) :
    ReadsNothing w userId channel ↔ channel.deleted = true ∨ ShutOut w userId channel := by
  constructor
  · intro reads
    cases live : channel.deleted with
    | true => exact .inl rfl
    | false =>
      refine .inr ⟨?_, ?_⟩
      · intro banned r here p stored named typed available found
        have inside := inChannel_iff.mpr ⟨p, stored, named, typed⟩
        have only := List.mem_singleton.mpr (rfl : r = r)
        rcases returned_of_found closed live stored typed here named available found with
          ⟨request, answered⟩ | ⟨request, answered⟩
        · rw [reads.history banned request [r] answered r only] at inside
          cases inside
        · rw [reads.search banned request [r] answered r only] at inside
          cases inside
      · intro departed
        by_contra allowed
        have answered := getMessages_of_departed closed live departed allowed
        have refused := getMessages_of_absent (private_without closed)
          (show (⟨channel.id, .valid, []⟩ : GetMessages).channelId = channel.id from rfl)
          (participant_without userId channel.id)
        rw [reads.departed departed _ rfl, refused] at answered
        exact refusal_ne_ok answered
  · intro condition
    -- What a reading request returns of the channel is available and found, in a live channel.
    have unread : w.Banned userId channel.id → ∀ {input scope a r}, w.Looks userId input scope →
        a.onlyMentions = false → r ∈ w.getMessagesQueryInternal userId scope a →
          w.inChannel channel.id r = false := by
      intro banned input scope a r looks mentions listed
      rw [← Bool.not_eq_true]
      intro inside
      obtain ⟨⟨hash, c, reached⟩, here, p, stored, named, typed, available, found⟩ :=
        reached_of_mem closed looks mentions listed inside
      obtain ⟨known, live, -⟩ := id_of_stored reached
      obtain rfl : channel = c := by
        rw [closed.stored] at known
        exact Option.some.inj known
      rcases condition with deleted | shut
      · rw [live] at deleted
        cases deleted
      · exact shut.nothing banned r here p stored named typed available found
    refine ⟨?_, ?_, ?_, ?_, ?_⟩
    · intro banned request messages answered r listed
      rcases getHistory_spec answered with rfl | ⟨scope, a, looks, mentions, rfl⟩
      · cases listed
      · exact unread banned looks mentions listed
    · intro banned request messages answered r listed
      obtain ⟨scope, a, looks, mentions, rfl⟩ := search_spec answered
      exact unread banned looks mentions listed
    · intro banned request messages answered r listed
      rw [← Bool.not_eq_true]
      intro inside
      have same := inChannel_unique (inChannel_of_getMessages answered listed) inside
      rw [← same] at banned
      rw [getMessages_of_banned banned] at answered
      exact refusal_ne_ok answered
    · intro departed request names
      have absent := getMessages_of_absent (private_without closed) names
        (participant_without userId channel.id)
      have refused : w.getMessages userId request = w.refusal userId request := by
        rcases condition with deleted | shut
        · apply getMessages_of_unreached
          rw [names]
          unfold World.channelFromInput
          rw [closed.stored]
          simp [Option.filter, deleted]
        · apply getMessages_of_banned
          rw [names]
          exact shut.banned departed
      rw [refused, absent, World.refusal, World.refusal, names, channelFromInput_without departed]
    · intro p _ left
      simp [Channels.ChatOrChannel.canViewMessages, left]

section Samples

def lounge : Channel :=
  ⟨⟨⟨1, 0⟩, 9, false, true, false, false, false, none, false, none, false, 1⟩, none, some 300⟩

/-- A private supergroup with two messages; user 2 is banned and gone, user 3 is only gone. -/
def loungeWorld : World where
  peers := ⟨[⟨61, none, .channel 9, none, none, 0⟩], by decide⟩
  channels := ⟨[lounge], by decide⟩
  participants := ⟨[⟨⟨2, 1, 0, true⟩, 9, none⟩, ⟨⟨3, 0, 0, true⟩, 9, none⟩], by decide⟩
  mentions := []
  readStates := []
  dialogs := []
  refs := ⟨[⟨205, 61, ⟨405, .regular, 1, "old".toList, 10, none, false, none⟩, false, none, none⟩,
    ⟨305, 61, ⟨406, .regular, 1, "new".toList, 20, none, false, none⟩, false, none, none⟩],
    by decide⟩
  users := .empty
  chats := .empty
  usernames := []

/-- The same before anything was written that is available. -/
def quietWorld : World where
  toDb := { loungeWorld.toDb with refs := loungeWorld.refs.remove fun r => r.id == 305 }
  users := .empty
  chats := .empty
  usernames := []

theorem quietWorld_private : quietWorld.Private lounge := by
  refine ⟨by decide, ?_, ?_, ?_, rfl⟩
  · intro p listed _
    obtain rfl := List.mem_singleton.mp listed
    rfl
  · intro p listed q listed' _ _
    rw [List.mem_singleton.mp listed, List.mem_singleton.mp listed']
  · intro u listed
    cases listed

/-- The user who is banned and gone reads nothing where only old messages are left. -/
theorem readsNothing_iff_quiet : ReadsNothing quietWorld 2 lounge := by
  refine (readsNothing_iff quietWorld_private).mpr (.inr ⟨?_, ?_⟩)
  · intro _ r here p stored _ _ available _
    obtain rfl := List.mem_singleton.mp stored
    obtain rfl := List.mem_singleton.mp here
    exact absurd available (by decide)
  · intro _
    exact ⟨⟨⟨2, 1, 0, true⟩, 9, none⟩, by decide, by decide⟩

/-- The banned user gets the history, and the user who is gone gets a message by its identifier. -/
theorem banned_reads_history : ∃ (w : World) (channel : Channel), w.Private channel ∧
    w.Banned 2 channel.id ∧
    (w.getHistory 2 ⟨.channel channel.id .valid, 0, 0, 10, 0, 0⟩).map (List.map MessageRef.id) =
      .ok [305] ∧
    w.Departed 3 channel.id ∧
    (w.getMessages 3 ⟨channel.id, .valid, [.id 305]⟩).map (List.map MessageRef.id) = .ok [305] ∧
    (w.without 3 channel.id).getMessages 3 ⟨channel.id, .valid, [.id 305]⟩ =
      .error (.rpc 400 "CHAT_RESTRICTED") := by
  refine ⟨loungeWorld, lounge, ⟨by decide, ?_, ?_, ?_, rfl⟩,
    ⟨⟨⟨2, 1, 0, true⟩, 9, none⟩, by decide, by decide⟩, by decide,
    ⟨⟨⟨3, 0, 0, true⟩, 9, none⟩, by decide, by decide⟩, by decide, by decide⟩
  · intro p listed _
    obtain rfl := List.mem_singleton.mp listed
    rfl
  · intro p listed q listed' _ _
    rw [List.mem_singleton.mp listed, List.mem_singleton.mp listed']
  · intro u listed
    cases listed

end Samples

end Piltover.History
