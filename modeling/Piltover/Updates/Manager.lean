/- source: piltover/app/utils/updates_manager.py
   digest: The updates of messages in dialogs: pts, rows, pushes and results. -/

import Mathlib.Algebra.Order.BigOperators.Group.List
import Piltover.Failure
import Piltover.Foundation.OrderedDict
import Piltover.Foundation.SharedCache
import Piltover.Updates.Difference
import Piltover.Updates.State

set_option autoImplicit false

namespace Piltover.Updates.Manager

open Piltover.Foundation
open Piltover.Updates.State

structure Peer where
  id : Nat
  ownerId : Nat
  deriving DecidableEq, Repr

/-- `service` is whether `to_tl` raises: a service message cannot be formatted. -/
structure MessageRef extends Updates.MessageRef where
  randomId : Option Int
  pinned : Bool
  service : Bool
  deriving DecidableEq, Repr

namespace MessageRef

variable (message : MessageRef)

/-- `message.random_id` where it counts as true. -/
def truthyRandomId : Option Int := message.randomId.filter (· != 0)

/-- The pts of a new message, and of its identifier. -/
def ptsCount : Int := if message.truthyRandomId.isSome then 2 else 1

def toTl : MessageToFormat := ⟨message.id⟩

end MessageRef

/-- A dictionary by peers that belong to different users, as those of one conversation do. -/
structure ByPeer (β : Type) where
  items : List (Peer × β)
  owners : (items.map fun item => item.1.ownerId).Nodup

/-- The updates as clients get them. -/
inductive TLUpdate
  | messageID (id : Nat) (randomId : Option Int)
  | newMessage (message : MessageToFormat) (pts ptsCount : Int)
  | deleteMessages (messages : List Nat) (pts ptsCount : Int)
  | editMessage (message : MessageToFormat) (pts ptsCount : Int)
  | pinnedMessages (pinned : Bool) (peer : Nat) (messages : List Nat) (pts ptsCount : Int)
  | readHistoryInbox (peer maxId stillUnreadCount : Nat) (pts ptsCount : Int)
  deriving DecidableEq, Repr

def TLUpdate.carries : TLUpdate → Option (Int × Int)
  | .messageID _ _ => none
  | .newMessage _ pts ptsCount | .deleteMessages _ pts ptsCount | .editMessage _ pts ptsCount
  | .pinnedMessages _ _ _ pts ptsCount | .readHistoryInbox _ _ _ pts ptsCount =>
    some (pts, ptsCount)

/-- A row of `Update` as it is created; the database sets the date. -/
structure Row where
  userId : Nat
  updateType : UpdateType
  pts : Int
  ptsCount : Int
  relatedId : Option Nat
  relatedIds : List Int
  additionalData : List Nat
  peer : Option Nat
  message : Option Updates.MessageRef
  deriving DecidableEq, Repr

/-- What `get_difference` reads of a row. -/
def Row.stored (row : Row) (date : Int) : Update :=
  ⟨row.updateType, row.pts, row.ptsCount, date, row.relatedId, row.message⟩

namespace Row

variable (userId : Nat) (pts : Int)

def messageDelete (ids : List Nat) : Row :=
  ⟨userId, .other 0, pts, 0, none, ids.map Int.ofNat, [], none, none⟩

def messageEdit (message : MessageRef) : Row :=
  ⟨userId, .messageEdit, pts, 0, some message.id, [], [], none, some message.toMessageRef⟩

def readInbox (peer : Peer) (maxId unreadCount : Nat) : Row :=
  ⟨userId, .other 14, pts, 1, some peer.id, [], [maxId, unreadCount], some peer.id, none⟩

def newMessage (message : MessageRef) : Row :=
  ⟨userId, .newMessage, pts, 1, some message.id, [], [], none, some message.toMessageRef⟩

def updateMessageId (message : MessageRef) (randomId : Int) : Row :=
  ⟨userId, .other 45, pts, 1, some message.id, [randomId], [], none, none⟩

def pinMessages (ptsCount : Int) (peer : Peer) (ids : List Nat) : Row :=
  ⟨userId, .other 51, pts, ptsCount, some peer.id, ids.map Int.ofNat, [], some peer.id, none⟩

def unpinMessages (ptsCount : Int) (peer : Peer) (ids : List Nat) : Row :=
  ⟨userId, .other 52, pts, ptsCount, some peer.id, ids.map Int.ofNat, [], some peer.id, none⟩

end Row

/-- A `SessionManager.send` to a user, and the authorization that it leaves out. -/
structure Push where
  userId : Nat
  ignoreAuthId : Option Nat
  updates : List TLUpdate
  deriving DecidableEq, Repr

structure Server where
  statePts : Counters
  rows : List Row
  pushed : List Push

structure Part where
  userId : Nat
  ptsCount : Int
  rows : Int → List Row
  pushes : Int → List Push

namespace Server

variable (server : Server)

/-- `State.add_pts_bulk` for the users, and for each of them the rows and the pushes. -/
def announce (parts : List Part) : Option (Server × List Int) :=
  match addPtsBulk server.statePts (parts.map Part.userId) (parts.map Part.ptsCount) with
  | none => none
  | some (after, ptss) =>
    some (⟨after,
      server.rows ++ (parts.zip ptss).flatMap fun (part, newPts) => part.rows newPts,
      server.pushed ++ (parts.zip ptss).flatMap fun (part, newPts) => part.pushes newPts⟩, ptss)

end Server

section SendMessage

/-- The updates of a message that is new at `newPts`. -/
def newMessageUpdates (message : MessageRef) (newPts ptsCount : Int) : List TLUpdate :=
  (message.truthyRandomId.toList.map fun randomId => .messageID message.id (some randomId)) ++
    [.newMessage message.toTl newPts ptsCount]

def newMessageRows (userId : Nat) (message : MessageRef) (newPts : Int) : List Row :=
  (message.truthyRandomId.toList.map (Row.updateMessageId userId (newPts - 1) message)) ++
    [Row.newMessage userId newPts message]

/-- An owner has one peer here, so that `messages[peer_by_user_id[...]]` is the same message. What
raises does so after the pts are reserved, before any row or push. -/
def sendMessagePart (raises : Bool) (currentUserId : Option Nat) (ignoreCurrent : Bool)
    (authId : Option Nat) (item : Peer × MessageRef) : Part where
  userId := item.1.ownerId
  ptsCount := item.2.ptsCount
  rows := fun newPts => if raises then [] else newMessageRows item.1.ownerId item.2 newPts
  pushes := fun newPts =>
    if raises then []
    else
      let ignoreAuthId :=
        if ignoreCurrent ∧ some item.1.ownerId = currentUserId then authId else none
      [⟨item.1.ownerId, ignoreAuthId, newMessageUpdates item.2 newPts 1⟩]

def ByPeer.raises (messages : ByPeer MessageRef) : Bool :=
  messages.items.any fun item => item.2.service

/-- `send_message`; `authId` is the one of the request, if there is one. It is `none` where the call
raises before it changes anything. -/
def Server.sendMessage (server : Server) (currentUserId : Option Nat)
    (messages : ByPeer MessageRef) (ignoreCurrent : Bool) (authId : Option Nat) :
    Option (Server × Except Failure (Option (List TLUpdate))) :=
  -- `next(iter(...))` raises for no messages.
  if messages.items = [] then none
  else
    match server.announce (messages.items.map
        (sendMessagePart messages.raises currentUserId ignoreCurrent authId)) with
    | none => none
    | some (after, ptss) =>
      some (after, if messages.raises then .error .other else
        .ok <| (messages.items.zip ptss).findSome? fun (item, newPts) =>
        if some item.1.ownerId = currentUserId then
          -- The sender already has the content and merges it by `pts_count=0`.
          if item.2.truthyRandomId.isSome ∧ 1 < messages.items.length then
            some (newMessageUpdates item.2 newPts 0)
          else some (newMessageUpdates item.2 newPts 1)
        else none)

def sendMessagesRows (userId : Nat) : Int → List MessageRef → List Row
  | _, [] => []
  | pts, message :: rest =>
    newMessageRows userId message (pts + message.ptsCount) ++
      sendMessagesRows userId (pts + message.ptsCount) rest

def sendMessagesUpdates : Int → List MessageRef → List TLUpdate
  | _, [] => []
  | pts, message :: rest =>
    newMessageUpdates message (pts + message.ptsCount) 1 ++
      sendMessagesUpdates (pts + message.ptsCount) rest

def ptsCounts (messages : List MessageRef) : Int := (messages.map MessageRef.ptsCount).sum

def sendMessagesPart (raises : Bool) (item : Peer × List MessageRef) : Part where
  userId := item.1.ownerId
  ptsCount := ptsCounts item.2
  rows := fun newPts =>
    if raises then [] else sendMessagesRows item.1.ownerId (newPts - ptsCounts item.2) item.2
  pushes := fun newPts =>
    if raises then []
    else [⟨item.1.ownerId, none, sendMessagesUpdates (newPts - ptsCounts item.2) item.2⟩]

def ByPeer.anyRaises (messages : ByPeer (List MessageRef)) : Bool :=
  messages.items.any fun item => item.2.any MessageRef.service

def prependUpdates (prependExisting : List MessageRef) (resultPts : Int) : List TLUpdate :=
  prependExisting.flatMap fun message =>
    [.messageID message.id message.randomId, .newMessage message.toTl resultPts 0]

def Server.sendMessages (server : Server) (messages : ByPeer (List MessageRef))
    (user : Option Nat) (prependExisting : List MessageRef) :
    Option (Server × Except Failure (Option (List TLUpdate))) :=
  if messages.items = [] then none
  else
    match server.announce (messages.items.map (sendMessagesPart messages.anyRaises)) with
    | none => none
    | some (after, ptss) => some (after, do
        require (!messages.anyRaises) .other
        let own := (messages.items.zip ptss).find? fun (item, _) => some item.1.ownerId = user
        let result := own.map fun (item, newPts) =>
          sendMessagesUpdates (newPts - ptsCounts item.2) item.2
        match user with
        | none => pure result
        | some userId =>
          if prependExisting = [] then pure result
          else
            let resultPts ← orRaise ((own.map Prod.snd).or (after.statePts userId)) .other
            require (!prependExisting.any MessageRef.service) .other
            pure (some (prependUpdates prependExisting resultPts ++ result.getD [])))

end SendMessage

section OtherUpdates

variable (server : Server)

def deleteMessagesPart (item : Sigma fun _ : Nat => List Nat) : Part where
  userId := item.1
  ptsCount := item.2.length
  rows := fun newPts => [Row.messageDelete item.1 newPts item.2]
  pushes := fun newPts => [⟨item.1, none, [.deleteMessages item.2 newPts item.2.length]⟩]

def Server.deleteMessages (currentUserId : Option Nat) (messages : OrderedDict Nat (List Nat)) :
    Option (Server × Option Int) :=
  match server.announce (messages.entries.map deleteMessagesPart) with
  | none => none
  | some (after, ptss) =>
    some (after, (messages.entries.zip ptss).findSome? fun (item, newPts) =>
      if currentUserId = some item.1 then some newPts else none)

/-- The messages that are pushed, each in its turn, before one of them raises. -/
def ByPeer.pushedFirst (messages : ByPeer MessageRef) : List (Peer × MessageRef) :=
  messages.items.takeWhile fun item => !item.2.service

def editMessagePart (messages : ByPeer MessageRef) (item : Peer × MessageRef) : Part where
  userId := item.1.ownerId
  ptsCount := 1
  rows := fun newPts =>
    if messages.raises then [] else [Row.messageEdit item.1.ownerId newPts item.2]
  pushes := fun newPts =>
    if item ∈ messages.pushedFirst then
      [⟨item.1.ownerId, none, [.editMessage item.2.toTl newPts 1]⟩]
    else []

def Server.editMessage (userId : Nat) (messages : ByPeer MessageRef) :
    Option (Server × Except Failure (Option (List TLUpdate))) :=
  if messages.items = [] then none
  else
    match server.announce (messages.items.map (editMessagePart messages)) with
    | none => none
    | some (after, ptss) =>
      some (after, if messages.raises then .error .other else
        .ok <| (messages.items.zip ptss).findSome? fun (item, newPts) =>
          if userId = item.1.ownerId then some [.editMessage item.2.toTl newPts 1] else none)

def idsWhere (pinned : Bool) (messages : List MessageRef) : List Nat :=
  (messages.filter fun message => message.pinned == pinned).map fun message => message.id

def pinnedUpdates (item : Peer × List MessageRef) (newPts : Int) : List TLUpdate :=
  let pinned := idsWhere true item.2
  let unpinned := idsWhere false item.2
  (if pinned.length ≠ 0 then
    [.pinnedMessages true item.1.id pinned (newPts - unpinned.length) pinned.length]
    else []) ++
  if unpinned.length ≠ 0 then
    [.pinnedMessages false item.1.id unpinned newPts unpinned.length]
  else []

def pinMessagesPart (item : Peer × List MessageRef) : Part where
  userId := item.1.ownerId
  ptsCount := item.2.length
  rows := fun newPts =>
    let pinned := idsWhere true item.2
    let unpinned := idsWhere false item.2
    (if pinned.length ≠ 0 then
      [Row.pinMessages item.1.ownerId (newPts - unpinned.length) pinned.length item.1 pinned]
      else []) ++
    if unpinned.length ≠ 0 then
      [Row.unpinMessages item.1.ownerId newPts unpinned.length item.1 unpinned]
    else []
  pushes := fun newPts => [⟨item.1.ownerId, none, pinnedUpdates item newPts⟩]

def Server.pinMessages (userId : Nat) (messages : ByPeer (List MessageRef)) :
    Option (Server × Int × Int × Option (List TLUpdate)) :=
  match server.announce (messages.items.map pinMessagesPart) with
  | none => none
  | some (after, ptss) =>
    match (messages.items.zip ptss).find? fun (item, _) => userId = item.1.ownerId with
    | none => some (after, 0, 0, none)
    | some (item, newPts) =>
      some (after, newPts, item.2.length, some (pinnedUpdates item newPts))

def Server.updateReadHistoryInbox (peer : Peer) (maxId unreadCount : Nat) (broadcast : Bool) :
    Option (Server × Int × List TLUpdate) :=
  match server.statePts peer.ownerId with
  | none => none
  | some before =>
    let pts := addPts before 1
    let updates := [.readHistoryInbox peer.id maxId unreadCount pts 1]
    some (⟨Function.update server.statePts peer.ownerId (some pts),
      server.rows ++ [Row.readInbox peer.ownerId pts peer maxId unreadCount],
      if broadcast then server.pushed ++ [⟨peer.ownerId, none, updates⟩] else server.pushed⟩,
      pts, updates)

end OtherUpdates

inductive Operation
  | sendMessage (currentUserId : Option Nat) (messages : ByPeer MessageRef)
      (ignoreCurrent : Bool) (authId : Option Nat)
  | sendMessages (messages : ByPeer (List MessageRef)) (user : Option Nat)
      (prependExisting : List MessageRef)
  | deleteMessages (currentUserId : Option Nat) (messages : OrderedDict Nat (List Nat))
  | editMessage (userId : Nat) (messages : ByPeer MessageRef)
  | pinMessages (userId : Nat) (messages : ByPeer (List MessageRef))
  | updateReadHistoryInbox (peer : Peer) (maxId unreadCount : Nat) (broadcast : Bool)

namespace Server

/-- A server with these counters, before anything is pushed. -/
def start (statePts : Counters) : Server := ⟨statePts, [], []⟩

/-- What an operation leaves, also if it raises in the end. -/
def step (server : Server) : Operation → Option Server
  | .sendMessage currentUserId messages ignoreCurrent authId =>
    (server.sendMessage currentUserId messages ignoreCurrent authId).map Prod.fst
  | .sendMessages messages user prependExisting =>
    (server.sendMessages messages user prependExisting).map Prod.fst
  | .deleteMessages currentUserId messages =>
    (server.deleteMessages currentUserId messages).map Prod.fst
  | .editMessage userId messages => (server.editMessage userId messages).map Prod.fst
  | .pinMessages userId messages => (server.pinMessages userId messages).map Prod.fst
  | .updateReadHistoryInbox peer maxId unreadCount broadcast =>
    (server.updateReadHistoryInbox peer maxId unreadCount broadcast).map Prod.fst

/-- What the updates pushed to a user carry, in the order of the pushes. -/
def announced (server : Server) (userId : Nat) : List (Int × Int) :=
  (server.pushed.filter fun push => push.userId == userId).flatMap fun push =>
    push.updates.filterMap TLUpdate.carries

def rowsOf (server : Server) (userId : Nat) : List Row :=
  server.rows.filter fun row => row.userId == userId

end Server

/-- A read as a part: nothing is pushed without `broadcast`. -/
def readHistoryInboxPart (peer : Peer) (maxId unreadCount : Nat) (broadcast : Bool) : Part where
  userId := peer.ownerId
  ptsCount := 1
  rows := fun pts => [Row.readInbox peer.ownerId pts peer maxId unreadCount]
  pushes := fun pts =>
    if broadcast then
      [⟨peer.ownerId, none, [.readHistoryInbox peer.id maxId unreadCount pts 1]⟩]
    else []

def Operation.parts : Operation → List Part
  | .sendMessage currentUserId messages ignoreCurrent authId =>
    messages.items.map (sendMessagePart messages.raises currentUserId ignoreCurrent authId)
  | .sendMessages messages _ _ => messages.items.map (sendMessagesPart messages.anyRaises)
  | .deleteMessages _ messages => messages.entries.map deleteMessagesPart
  | .editMessage _ messages => messages.items.map (editMessagePart messages)
  | .pinMessages _ messages => messages.items.map pinMessagesPart
  | .updateReadHistoryInbox peer maxId unreadCount broadcast =>
    [readHistoryInboxPart peer maxId unreadCount broadcast]

namespace Part

def announces (part : Part) (newPts : Int) : List (Int × Int) :=
  (part.pushes newPts).flatMap fun push => push.updates.filterMap TLUpdate.carries

/-- The part is what the user gets, from `pts` on. -/
structure Done (part : Part) (server after : Server) (pts : Int) : Prop where
  statePts : after.statePts part.userId = some (pts + part.ptsCount)
  announced : after.announced part.userId =
    server.announced part.userId ++ part.announces (pts + part.ptsCount)
  rowsOf : after.rowsOf part.userId =
    server.rowsOf part.userId ++ part.rows (pts + part.ptsCount)

end Part

structure Untouched (server after : Server) (userId : Nat) : Prop where
  statePts : after.statePts userId = server.statePts userId
  announced : after.announced userId = server.announced userId
  rowsOf : after.rowsOf userId = server.rowsOf userId

/-- The parts are for different users, count what they raise, and hold rows and pushes of their
users. -/
structure WellFormed (parts : List Part) : Prop where
  distinct : (parts.map Part.userId).Nodup
  counted : ∀ part ∈ parts, 0 ≤ part.ptsCount
  owned : ∀ part ∈ parts, ∀ newPts, ∀ row ∈ part.rows newPts, row.userId = part.userId
  addressed : ∀ part ∈ parts, ∀ newPts, ∀ push ∈ part.pushes newPts, push.userId = part.userId

section Parts

theorem MessageRef.ptsCount_pos (message : MessageRef) : 0 < message.ptsCount := by
  rw [MessageRef.ptsCount]
  split <;> decide

theorem ptsCounts_cons (message : MessageRef) (rest : List MessageRef) :
    ptsCounts (message :: rest) = message.ptsCount + ptsCounts rest := by
  rw [ptsCounts, ptsCounts, List.map_cons, List.sum_cons]

theorem ptsCounts_nonneg (messages : List MessageRef) : 0 ≤ ptsCounts messages := by
  refine List.sum_nonneg fun count listed => ?_
  obtain ⟨message, _, rfl⟩ := List.mem_map.mp listed
  exact message.ptsCount_pos.le

theorem ptsCounts_pos {messages : List MessageRef} (something : messages ≠ []) :
    0 < ptsCounts messages := by
  obtain ⟨message, rest, rfl⟩ := List.exists_cons_of_ne_nil something
  have first := message.ptsCount_pos
  have others := ptsCounts_nonneg rest
  rw [ptsCounts_cons]
  omega

theorem length_idsWhere (messages : List MessageRef) :
    ((idsWhere true messages).length : Int) + (idsWhere false messages).length =
      messages.length := by
  have split := List.length_eq_length_filter_add (l := messages) fun message => message.pinned
  simp only [idsWhere, List.length_map, beq_true, beq_false]
  omega

private theorem newMessageRows_owned {userId : Nat} {message : MessageRef} {newPts : Int} {row : Row}
    (listed : row ∈ newMessageRows userId message newPts) : row.userId = userId := by
  rcases List.mem_append.mp listed with identifier | new
  · obtain ⟨_, _, rfl⟩ := List.mem_map.mp identifier
    rfl
  · cases List.mem_singleton.mp new
    rfl

private theorem sendMessagesRows_owned {userId : Nat} {messages : List MessageRef} {pts : Int}
    {row : Row} (listed : row ∈ sendMessagesRows userId pts messages) : row.userId = userId := by
  induction messages generalizing pts with
  | nil => cases listed
  | cons message rest ih =>
    rcases List.mem_append.mp listed with first | later
    · exact newMessageRows_owned first
    · exact ih later

private theorem pinMessagesPart_owned {item : Peer × List MessageRef} {newPts : Int} {row : Row}
    (listed : row ∈ (pinMessagesPart item).rows newPts) : row.userId = item.1.ownerId := by
  rcases List.mem_append.mp listed with pinned | unpinned
  · split at pinned
    · cases List.mem_singleton.mp pinned
      rfl
    · cases pinned
  · split at unpinned
    · cases List.mem_singleton.mp unpinned
      rfl
    · cases unpinned

private theorem wellFormed_map {β : Type} {items : List β} {part : β → Part}
    (distinct : (items.map fun item => (part item).userId).Nodup)
    (counted : ∀ item, 0 ≤ (part item).ptsCount)
    (owned : ∀ item newPts, ∀ row ∈ (part item).rows newPts, row.userId = (part item).userId)
    (addressed : ∀ item newPts, ∀ push ∈ (part item).pushes newPts,
      push.userId = (part item).userId) :
    WellFormed (items.map part) where
  distinct := by
    rw [List.map_map]
    exact distinct
  counted := by
    intro made listed
    obtain ⟨item, _, rfl⟩ := List.mem_map.mp listed
    exact counted item
  owned := by
    intro made listed
    obtain ⟨item, _, rfl⟩ := List.mem_map.mp listed
    exact owned item
  addressed := by
    intro made listed
    obtain ⟨item, _, rfl⟩ := List.mem_map.mp listed
    exact addressed item

theorem Operation.parts_wellFormed (op : Operation) : WellFormed op.parts := by
  cases op with
  | sendMessage currentUserId messages ignoreCurrent authId =>
    refine wellFormed_map messages.owners (fun item => item.2.ptsCount_pos.le) ?_ ?_
    · intro item newPts row listed
      simp only [sendMessagePart] at listed
      split at listed
      · cases listed
      · exact newMessageRows_owned listed
    · intro item newPts push listed
      simp only [sendMessagePart] at listed
      split at listed <;> cases listed
      · rfl
      · rename_i later
        cases later
  | sendMessages messages user prependExisting =>
    refine wellFormed_map messages.owners (fun item => ptsCounts_nonneg item.2) ?_ ?_
    · intro item newPts row listed
      simp only [sendMessagesPart] at listed
      split at listed
      · cases listed
      · exact sendMessagesRows_owned listed
    · intro item newPts push listed
      simp only [sendMessagesPart] at listed
      split at listed
      · cases listed
      · cases List.mem_singleton.mp listed
        rfl
  | deleteMessages currentUserId messages =>
    refine wellFormed_map messages.nodupKeys (fun item => Int.natCast_nonneg _) ?_ ?_
    · intro item newPts row listed
      cases List.mem_singleton.mp listed
      rfl
    · intro item newPts push listed
      cases List.mem_singleton.mp listed
      rfl
  | editMessage userId messages =>
    refine wellFormed_map messages.owners (fun item => Int.one_nonneg) ?_ ?_
    · intro item newPts row listed
      simp only [editMessagePart] at listed
      split at listed
      · cases listed
      · cases List.mem_singleton.mp listed
        rfl
    · intro item newPts push listed
      simp only [editMessagePart] at listed
      split at listed
      · cases List.mem_singleton.mp listed
        rfl
      · cases listed
  | pinMessages userId messages =>
    refine wellFormed_map messages.owners (fun item => Int.natCast_nonneg _)
      (fun item newPts row listed => pinMessagesPart_owned listed) ?_
    intro item newPts push listed
    cases List.mem_singleton.mp listed
    rfl
  | updateReadHistoryInbox peer maxId unreadCount broadcast =>
    refine ⟨List.nodup_singleton _, ?_, ?_, ?_⟩
    · intro part listed
      cases List.mem_singleton.mp listed
      exact Int.one_nonneg
    · intro part listed newPts row made
      cases List.mem_singleton.mp listed
      cases List.mem_singleton.mp made
      rfl
    · intro part listed newPts push made
      cases List.mem_singleton.mp listed
      simp only [readHistoryInboxPart] at made
      split at made
      · cases List.mem_singleton.mp made
        rfl
      · cases made

end Parts

section Announce

variable {server after : Server} {parts : List Part} {ptss : List Int} {userId : Nat}

private theorem filter_eq_of_mem (distinct : (parts.map Part.userId).Nodup) {part : Part}
    (mem : part ∈ parts) : (parts.filter fun p => p.userId == part.userId) = [part] := by
  induction parts with
  | nil => cases mem
  | cons first parts ih =>
    rw [List.map_cons, List.nodup_cons] at distinct
    rcases List.mem_cons.mp mem with rfl | later
    · have alone : (parts.filter fun p => p.userId == part.userId) = [] := by
        refine List.filter_eq_nil_iff.mpr fun other listed same => ?_
        exact distinct.1 (List.mem_map.mpr ⟨other, listed, beq_iff_eq.mp same⟩)
      rw [List.filter_cons, if_pos (beq_self_eq_true _), alone]
    · have apart : ¬ (first.userId == part.userId) = true := by
        intro same
        exact distinct.1 (List.mem_map.mpr ⟨part, later, (beq_iff_eq.mp same).symm⟩)
      rw [List.filter_cons, if_neg apart]
      exact ih distinct.2 later

private theorem filter_flatMap {γ : Type} {of : Part → List γ} {owner : γ → Nat}
    (owned : ∀ part ∈ parts, ∀ a ∈ of part, owner a = part.userId) :
    (parts.flatMap of).filter (fun a => owner a == userId) =
      (parts.filter fun part => part.userId == userId).flatMap of := by
  induction parts with
  | nil => rfl
  | cons part parts ih =>
    have here := owned part List.mem_cons_self
    rw [List.flatMap_cons, List.filter_append, ih fun p listed =>
      owned p (List.mem_cons_of_mem part listed), List.filter_cons]
    by_cases own : part.userId = userId
    · have all : (of part).filter (fun a => owner a == userId) = of part := by
        refine List.filter_eq_self.mpr fun a listed => ?_
        rw [here a listed, beq_iff_eq]
        exact own
      rw [all, if_pos (beq_iff_eq.mpr own), List.flatMap_cons]
    · have none : (of part).filter (fun a => owner a == userId) = [] := by
        refine List.filter_eq_nil_iff.mpr fun a listed => ?_
        rw [here a listed, beq_iff_eq]
        exact own
      rw [none, if_neg (fun same => own (beq_iff_eq.mp same)), List.nil_append]

private theorem announce_some (wellFormed : WellFormed parts)
    (announced : server.announce parts = some (after, ptss)) (userId : Nat) :
    addCounts server.statePts (parts.map fun part => (part.userId, part.ptsCount)) =
        some after.statePts ∧
      after.announced userId = server.announced userId ++
        ((parts.filter fun part => part.userId == userId).flatMap fun part =>
          part.announces ((after.statePts part.userId).getD 0)) ∧
      after.rowsOf userId = server.rowsOf userId ++
        (parts.filter fun part => part.userId == userId).flatMap fun part =>
          part.rows ((after.statePts part.userId).getD 0) := by
  rw [Server.announce] at announced
  split at announced
  · cases announced
  · rename_i counters returned added
    cases announced
    obtain ⟨counted, rfl⟩ := addPtsBulk_some added
    rw [List.zip_map'] at counted
    have paired : parts.zip (parts.map ((fun user => (counters user).getD 0) ∘ Part.userId)) =
        parts.map fun part => (part, (counters part.userId).getD 0) :=
      Cache.zip_map_self _ parts
    refine ⟨counted, ?_, ?_⟩
    · simp only [Server.announced, List.map_map, paired, List.filter_append, List.flatMap_append,
        List.flatMap_map]
      rw [filter_flatMap fun part listed => wellFormed.addressed part listed _, List.flatMap_assoc]
      rfl
    · simp only [Server.rowsOf, List.map_map, paired, List.filter_append, List.flatMap_map]
      rw [filter_flatMap fun part listed => wellFormed.owned part listed _]

theorem announce_spec (wellFormed : WellFormed parts) {pts : Int}
    (known : server.statePts userId = some pts)
    (announced : server.announce parts = some (after, ptss)) :
    (∃ part ∈ parts, part.userId = userId ∧ part.Done server after pts) ∨
      (∀ part ∈ parts, part.userId ≠ userId) ∧ Untouched server after userId := by
  obtain ⟨added, pushed, created⟩ := announce_some wellFormed announced userId
  by_cases present : ∃ part ∈ parts, part.userId = userId
  · obtain ⟨part, listed, rfl⟩ := present
    have raised : after.statePts part.userId = some (pts + part.ptsCount) := by
      rw [← addPts_of_nonneg pts (wellFormed.counted part listed)]
      refine addCounts_of_mem ?_ (List.mem_map.mpr ⟨part, listed, rfl⟩) known added
      rw [List.map_map]
      exact wellFormed.distinct
    rw [filter_eq_of_mem wellFormed.distinct listed, List.flatMap_singleton, raised] at pushed
    rw [filter_eq_of_mem wellFormed.distinct listed, List.flatMap_singleton, raised] at created
    exact .inl ⟨part, listed, rfl, raised, pushed, created⟩
  · have absent : ∀ part ∈ parts, part.userId ≠ userId := by
      intro part listed same
      exact present ⟨part, listed, same⟩
    have nobody : (parts.filter fun part => part.userId == userId) = [] :=
      List.filter_eq_nil_iff.mpr fun part listed same =>
        absent part listed (beq_iff_eq.mp same)
    rw [nobody, List.flatMap_nil, List.append_nil] at pushed created
    refine .inr ⟨absent, addCounts_of_notMem ?_ added, pushed, created⟩
    rw [List.map_map]
    intro listed
    obtain ⟨part, mem, same⟩ := List.mem_map.mp listed
    exact absent part mem same

theorem announce_ptss (announced : server.announce parts = some (after, ptss)) :
    ptss = parts.map fun part => (after.statePts part.userId).getD 0 := by
  rw [Server.announce] at announced
  split at announced
  · cases announced
  · rename_i counters returned added
    cases announced
    rw [(addPtsBulk_some added).2, List.map_map]
    rfl

theorem announce_known (announced : server.announce parts = some (after, ptss)) :
    ∀ part ∈ parts, ∃ pts, server.statePts part.userId = some pts := by
  intro part listed
  rw [Server.announce] at announced
  split at announced
  · cases announced
  · rename_i added
    exact Option.isSome_iff_exists.mp
      (known_of_addPtsBulk added part.userId (List.mem_map.mpr ⟨part, listed, rfl⟩))

theorem announce_isSome (known : ∀ part ∈ parts, (server.statePts part.userId).isSome) :
    (server.announce parts).isSome := by
  have users : ∀ user ∈ parts.map Part.userId, (server.statePts user).isSome := by
    intro user listed
    obtain ⟨part, mem, rfl⟩ := List.mem_map.mp listed
    exact known part mem
  have paired : (parts.map Part.ptsCount).length = (parts.map Part.userId).length := by
    rw [List.length_map, List.length_map]
  obtain ⟨⟨counters, ptss⟩, added⟩ := Option.isSome_iff_exists.mp (addPtsBulk_isSome paired users)
  rw [Server.announce, added]
  rfl

theorem announce_pushed (announced : server.announce parts = some (after, ptss)) :
    after.pushed = server.pushed ++ parts.flatMap fun part =>
      part.pushes ((after.statePts part.userId).getD 0) := by
  rw [Server.announce] at announced
  split at announced
  · cases announced
  · rename_i counters returned added
    cases announced
    obtain ⟨-, rfl⟩ := addPtsBulk_some added
    simp only [List.map_map, Cache.zip_map_self, List.flatMap_map]
    rfl

end Announce

section DeleteMessages

variable {server after : Server} {messages : OrderedDict Nat (List Nat)} {userId : Nat}
  {pts newPts : Int}

/-- The pts that `delete_messages` returns, and how far it is from the one before. -/
theorem deleteMessages_result
    (done : server.deleteMessages (some userId) messages = some (after, some newPts)) :
    ∃ ids, messages.lookup userId = some ids ∧
      server.statePts userId = some (newPts - ids.length) ∧
      after.statePts userId = some newPts := by
  rw [Server.deleteMessages] at done
  split at done
  · cases done
  · rename_i server' ptss announced
    simp only [Option.some.injEq, Prod.mk.injEq] at done
    obtain ⟨rfl, found⟩ := done
    rw [announce_ptss announced, List.map_map, Cache.zip_map_self] at found
    obtain ⟨pair, listed, chosen⟩ := List.exists_of_findSome?_eq_some found
    obtain ⟨item, member, rfl⟩ := List.mem_map.mp listed
    simp only at chosen
    split at chosen
    · rename_i own
      subst own
      have mine : deleteMessagesPart item ∈ messages.entries.map deleteMessagesPart :=
        List.mem_map.mpr ⟨item, member, rfl⟩
      have here : messages.lookup item.1 = some item.2 := AList.mem_lookup_iff.mpr member
      obtain ⟨pts, known⟩ := announce_known announced _ mine
      have wellFormed := (Operation.deleteMessages (some item.1) messages).parts_wellFormed
      rcases announce_spec wellFormed known announced with ⟨part, mem, user, did⟩ | ⟨nobody, -⟩
      · obtain ⟨other, there, rfl⟩ := List.mem_map.mp mem
        have same : other = item := messages.nodupKeys.eq_of_fst_eq there member user
        rw [same] at did
        have raised : server'.statePts item.1 = some (pts + item.2.length) := did.statePts
        have counted : newPts = pts + item.2.length := by
          rw [← Option.some.inj chosen]
          show (server'.statePts item.1).getD 0 = _
          rw [raised]
          rfl
        refine ⟨item.2, here, ?_, by rw [counted]; exact raised⟩
        rw [counted, Int.add_sub_cancel]
        exact known
      · exact absurd rfl (nobody _ mine)
    · cases chosen

/-- `delete_messages` answers when its users have rows of `State` and the caller is one of them. -/
theorem deleteMessages_isSome {ids : List Nat}
    (known : ∀ user ∈ messages, (server.statePts user).isSome)
    (mine : messages.lookup userId = some ids) :
    ∃ after newPts, server.deleteMessages (some userId) messages = some (after, some newPts) := by
  have parts : ∀ part ∈ messages.entries.map deleteMessagesPart,
      (server.statePts part.userId).isSome := by
    intro part listed
    obtain ⟨item, member, rfl⟩ := List.mem_map.mp listed
    exact known item.1 (AList.mem_keys.mpr (List.mem_keys_of_mem member))
  obtain ⟨⟨after, ptss⟩, announced⟩ := Option.isSome_iff_exists.mp (announce_isSome parts)
  rw [Server.deleteMessages, announced]
  simp only
  rw [announce_ptss announced, List.map_map, Cache.zip_map_self]
  have listed : (⟨userId, ids⟩ : Sigma fun _ : Nat => List Nat) ∈ messages.entries :=
    AList.mem_lookup_iff.mp mine
  cases found : (messages.entries.map fun item =>
      (item, ((fun part : Part => (after.statePts part.userId).getD 0) ∘ deleteMessagesPart)
        item)).findSome? fun (item, newPts) =>
          if some userId = some item.1 then some newPts else none with
  | none =>
    have missing := List.findSome?_eq_none_iff.mp found _ (List.mem_map.mpr ⟨_, listed, rfl⟩)
    simp at missing
  | some newPts => exact ⟨after, newPts, rfl⟩

/-- `delete_messages` pushes to every user the identifiers that it has for them. -/
theorem deleteMessages_pushed
    (done : server.deleteMessages (some userId) messages = some (after, some newPts)) :
    after.pushed = server.pushed ++ messages.entries.map fun item =>
      ⟨item.1, none, [.deleteMessages item.2 ((after.statePts item.1).getD 0) item.2.length]⟩ := by
  rw [Server.deleteMessages] at done
  split at done
  · cases done
  · rename_i announced
    simp only [Option.some.injEq, Prod.mk.injEq] at done
    obtain ⟨rfl, -⟩ := done
    rw [announce_pushed announced, List.flatMap_map, List.map_eq_flatMap]
    rfl

end DeleteMessages

section PinMessages

variable {server after : Server} {messages : ByPeer (List MessageRef)} {userId : Nat}
  {newPts ptsCount : Int} {updates : Option (List TLUpdate)}

/-- `pin_messages` answers with the pts of the user when a peer of theirs is among the peers, and
with zeros otherwise. -/
theorem pinMessages_result
    (done : server.pinMessages userId messages = some (after, newPts, ptsCount, updates)) :
    (∃ item ∈ messages.items, item.1.ownerId = userId ∧ ptsCount = item.2.length ∧
      server.statePts userId = some (newPts - ptsCount) ∧ after.statePts userId = some newPts) ∨
    ((∀ item ∈ messages.items, item.1.ownerId ≠ userId) ∧ newPts = 0 ∧ ptsCount = 0 ∧
      after.statePts userId = server.statePts userId) := by
  have wellFormed := (Operation.pinMessages userId messages).parts_wellFormed
  rw [Server.pinMessages] at done
  split at done
  · cases done
  · rename_i server' ptss announced
    rw [announce_ptss announced, List.map_map, Cache.zip_map_self] at done
    split at done
    · rename_i nothing
      cases done
      have nobody : ∀ item ∈ messages.items, item.1.ownerId ≠ userId := by
        intro item member own
        have missing := List.find?_eq_none.mp nothing _ (List.mem_map.mpr ⟨item, member, rfl⟩)
        exact missing (decide_eq_true own.symm)
      refine .inr ⟨nobody, rfl, rfl, addCounts_of_notMem ?_ (announce_some wellFormed announced
        userId).1⟩
      rw [List.map_map]
      intro listed
      obtain ⟨part, mem, same⟩ := List.mem_map.mp listed
      obtain ⟨item, member, rfl⟩ := List.mem_map.mp mem
      exact nobody item member same
    · rename_i item itemPts found
      cases done
      obtain ⟨first, member, paired⟩ := List.mem_map.mp (List.mem_of_find?_eq_some found)
      cases paired
      have hit := List.find?_some found
      have own : userId = item.1.ownerId := of_decide_eq_true hit
      subst own
      have mine : pinMessagesPart item ∈ messages.items.map pinMessagesPart :=
        List.mem_map.mpr ⟨item, member, rfl⟩
      obtain ⟨pts, known⟩ := announce_known announced _ mine
      refine .inl ⟨item, member, rfl, rfl, ?_⟩
      rcases announce_spec wellFormed known announced with ⟨part, mem, user, did⟩ | ⟨nobody, -⟩
      · obtain ⟨other, there, rfl⟩ := List.mem_map.mp mem
        have same : other = item := List.inj_on_of_nodup_map messages.owners there member user
        rw [same] at did
        have raised : after.statePts item.1.ownerId = some (pts + item.2.length) := did.statePts
        have here : server.statePts item.1.ownerId = some pts := known
        have newPts : ((fun part : Part => (after.statePts part.userId).getD 0) ∘ pinMessagesPart)
            item = pts + item.2.length := by
          show (after.statePts item.1.ownerId).getD 0 = _
          rw [raised]
          rfl
        rw [newPts, raised, here, Int.add_sub_cancel]
        exact ⟨rfl, rfl⟩
      · exact absurd rfl (nobody _ mine)

end PinMessages

section Step

variable {server after : Server} {op : Operation} {userId : Nat} {pts : Int}

private theorem step_announce (happens : server.step op = some after) :
    (∃ ptss, server.announce op.parts = some (after, ptss)) ∨
      ∃ peer maxId unreadCount broadcast,
        op = .updateReadHistoryInbox peer maxId unreadCount broadcast := by
  cases op with
  | updateReadHistoryInbox => exact .inr ⟨_, _, _, _, rfl⟩
  | sendMessages messages user prependExisting =>
    obtain ⟨result, answered, rfl⟩ := Option.map_eq_some_iff.mp happens
    rw [Server.sendMessages] at answered
    split at answered
    · cases answered
    · split at answered
      · cases answered
      · rename_i ptss announced
        cases answered
        exact .inl ⟨ptss, announced⟩
  | sendMessage | editMessage =>
    obtain ⟨result, answered, rfl⟩ := Option.map_eq_some_iff.mp happens
    simp only [Server.sendMessage, Server.editMessage] at answered
    split at answered
    · cases answered
    · split at answered
      · cases answered
      · rename_i ptss announced
        cases answered
        exact .inl ⟨ptss, announced⟩
  | deleteMessages =>
    obtain ⟨result, answered, rfl⟩ := Option.map_eq_some_iff.mp happens
    rw [Server.deleteMessages] at answered
    split at answered
    · cases answered
    · rename_i ptss announced
      cases answered
      exact .inl ⟨ptss, announced⟩
  | pinMessages =>
    obtain ⟨result, answered, rfl⟩ := Option.map_eq_some_iff.mp happens
    rw [Server.pinMessages] at answered
    split at answered
    · cases answered
    · rename_i ptss announced
      refine .inl ⟨ptss, announced.trans ?_⟩
      split at answered <;> cases answered <;> rfl

private theorem updateReadHistoryInbox_spec {peer : Peer} {maxId unreadCount : Nat}
    {broadcast : Bool} (known : server.statePts userId = some pts)
    (happens : server.step (.updateReadHistoryInbox peer maxId unreadCount broadcast) =
      some after) :
    peer.ownerId = userId ∧
        (readHistoryInboxPart peer maxId unreadCount broadcast).Done server after pts ∨
      peer.ownerId ≠ userId ∧ Untouched server after userId := by
  obtain ⟨result, answered, rfl⟩ := Option.map_eq_some_iff.mp happens
  rw [Server.updateReadHistoryInbox] at answered
  split at answered
  · cases answered
  · rename_i before found
    cases answered
    by_cases own : peer.ownerId = userId
    · subst own
      obtain rfl : before = pts := Option.some.inj (found.symm.trans known)
      refine .inl ⟨rfl, Function.update_self _ _ _, ?_, ?_⟩
      · cases broadcast <;>
          simp [Server.announced, Part.announces, readHistoryInboxPart, TLUpdate.carries, addPts]
      · simp [Server.rowsOf, readHistoryInboxPart, Row.readInbox, addPts]
    · refine .inr ⟨own, Function.update_of_ne (Ne.symm own) _ _, ?_, ?_⟩
      · cases broadcast <;> simp [Server.announced, own]
      · simp [Server.rowsOf, Row.readInbox, own]

theorem step_parts (known : server.statePts userId = some pts)
    (happens : server.step op = some after) :
    (∃ part ∈ op.parts, part.userId = userId ∧ part.Done server after pts) ∨
      (∀ part ∈ op.parts, part.userId ≠ userId) ∧ Untouched server after userId := by
  rcases step_announce happens with ⟨ptss, announced⟩ | ⟨peer, maxId, unreadCount, broadcast, rfl⟩
  · exact announce_spec op.parts_wellFormed known announced
  · rcases updateReadHistoryInbox_spec known happens with ⟨own, done⟩ | ⟨other, untouched⟩
    · exact .inl ⟨_, List.mem_singleton.mpr rfl, own, done⟩
    · refine .inr ⟨?_, untouched⟩
      intro part listed
      cases List.mem_singleton.mp listed
      exact other

theorem step_known (known : (server.statePts userId).isSome) (happens : server.step op = some after) :
    (after.statePts userId).isSome := by
  obtain ⟨pts, found⟩ := Option.isSome_iff_exists.mp known
  rcases step_parts found happens with ⟨part, -, rfl, done⟩ | ⟨-, untouched⟩
  · rw [done.statePts]
    rfl
  · rw [untouched.statePts, found]
    rfl

end Step

end Piltover.Updates.Manager
