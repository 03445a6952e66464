/- source: piltover/app/utils/updates_manager.py, piltover/db/models/chat.py,
     piltover/db/models/channel.py
   digest: Two updates made one: which users, groups and channels are left, by ids that a group and
     a channel may share. -/

import Piltover.Channels.Discussion
import Piltover.Foundation.Latest
import Piltover.Messages.Dialogs

set_option autoImplicit false

namespace Piltover.Updates.Merging

open Piltover.Foundation
open Piltover.Foundation.OrderedDict
open Piltover.Messages (Chat.makeIdFrom)

/-- A basic group or a channel, by the row it is in. -/
inductive Entity
  | chat (id : Nat)
  | channel (id : Nat)
  deriving DecidableEq, Repr

/-- What `unread_target_id` and `chat_channel_id` are set to. -/
def Entity.makeId : Entity → Nat
  | chat id => Chat.makeIdFrom id
  | channel id => Channels.makeId id

theorem Entity.makeId_inj {g h : Entity} : g.makeId = h.makeId ↔ g = h := by
  cases g <;> cases h <;> simp [makeId, Chat.makeIdFrom, Channels.makeId] <;> omega

/-- What may stand in the chats of updates. -/
inductive ChatClass
  | chat
  | chatForbidden
  | chatEmpty
  | channel
  | channelForbidden
  | chatToFormat
  | channelToFormat
  deriving DecidableEq, Repr

def ChatClass.isChannel : ChatClass → Bool
  | channel | channelForbidden | channelToFormat => true
  | chat | chatForbidden | chatEmpty | chatToFormat => false

/-- Objects of these classes get their clients' look when they are written. -/
def ChatClass.isToFormat : ChatClass → Bool
  | chatToFormat | channelToFormat => true
  | chat | chatForbidden | chatEmpty | channel | channelForbidden => false

/-- An object for the group or channel in a row, with its other fields. -/
structure TlChat (δ : Type) where
  class_ : ChatClass
  row : Nat
  fields : δ
  deriving DecidableEq, Repr

structure TlUser (δ : Type) where
  id : Nat
  fields : δ
  deriving DecidableEq, Repr

variable {υ δ : Type}

def TlChat.entity (c : TlChat δ) : Entity := if c.class_.isChannel then .channel c.row else .chat c.row

/-- `chat.id`, which all these classes have: the row itself in objects that are yet to be formatted,
and otherwise what `make_id` made of it. -/
def TlChat.id (c : TlChat δ) : Nat := if c.class_.isToFormat then c.row else c.entity.makeId

structure TlUpdates (υ δ : Type) where
  updates : List υ
  users : List (TlUser δ)
  chats : List (TlChat δ)
  date : Nat
  seq : Nat
  deriving DecidableEq, Repr

def mergeUpdates (into other : TlUpdates υ δ) : TlUpdates υ δ :=
  let userById := setAll TlUser.id (byKey TlUser.id into.users) other.users
  let chatById := setAll TlChat.id (setAll TlChat.id ∅ into.chats) other.chats
  { into with
    updates := into.updates ++ other.updates
    users := userById.values
    chats := chatById.values }

/-- All updates are there in their order, and for each user, group and channel one object, which is
the other's if it has one. -/
structure LosesNothing (a b merged : TlUpdates υ δ) : Prop where
  updates : merged.updates = a.updates ++ b.updates
  users : OneForEach TlUser.id a.users b.users merged.users
  chats : OneForEach TlChat.entity a.chats b.chats merged.chats

variable {a b : TlUpdates υ δ}

theorem users_mergeUpdates :
    (mergeUpdates a b).users = (byKey TlUser.id (a.users ++ b.users)).values := by
  rw [← setAll_byKey]
  rfl

theorem chats_mergeUpdates :
    (mergeUpdates a b).chats = (byKey TlChat.id (a.chats ++ b.chats)).values := by
  rw [← setAll_byKey, byKey_eq]
  rfl

theorem oneForEach_users : OneForEach TlUser.id a.users b.users (mergeUpdates a b).users := by
  rw [users_mergeUpdates, oneForEach_values_iff]
  exact oneLasts_of_key_iff fun _ _ _ _ => Iff.rfl

theorem oneForEach_chats_iff :
    OneForEach TlChat.entity a.chats b.chats (mergeUpdates a b).chats ↔
      OneLasts TlChat.id TlChat.entity a.chats b.chats := by
  rw [chats_mergeUpdates, oneForEach_values_iff]

/-- Nothing is lost exactly when for each group and channel one object, the other's if it has one,
is followed by none with its id, and all others are. The columns have no such condition. -/
theorem losesNothing_iff (a b : TlUpdates υ δ) :
    (LosesNothing a b (mergeUpdates a b) ∧ ∀ g h : Entity, g.makeId = h.makeId ↔ g = h) ↔
      OneLasts TlChat.id TlChat.entity a.chats b.chats := by
  constructor
  · rintro ⟨complete, -⟩
    exact oneForEach_chats_iff.mp complete.chats
  · intro last
    exact ⟨⟨rfl, oneForEach_users, oneForEach_chats_iff.mpr last⟩, fun _ _ => Entity.makeId_inj⟩

/-- The group in row 5 goes when the channel in row 5 comes, and neither is formatted yet. -/
theorem group_taken_for_channel :
    ¬ ∀ a b : TlUpdates Unit Unit, LosesNothing a b (mergeUpdates a b) := by
  intro complete
  let group : TlChat Unit := ⟨.chatToFormat, 5, ()⟩
  let a : TlUpdates Unit Unit := ⟨[], [], [group], 0, 0⟩
  let b : TlUpdates Unit Unit := ⟨[], [], [⟨.channelToFormat, 5, ()⟩], 0, 0⟩
  obtain ⟨shown, alone, -⟩ := (complete a b).chats group List.mem_cons_self
  have none_left : (mergeUpdates a b).chats.filter (fun c => c.entity = group.entity) = [] := by
    decide
  rw [none_left] at alone
  cases alone

end Piltover.Updates.Merging
