/- source: piltover/db/models/message_ref.py, piltover/utils/users_chats_channels.py
   digest: Messages as an answer carries them, and what the answer mentions. -/

import Mathlib.Data.Finset.Insert
import Piltover.Failure

set_option autoImplicit false

namespace Piltover.Updates

structure MessageRef where
  id : Nat
  contentId : Nat
  deriving DecidableEq, Repr

/-- A message as it is sent, known by its identifier. -/
structure MessageToFormat where
  id : Nat
  deriving DecidableEq, Repr

def toTlBulkMaybecached (refs : List MessageRef) : List MessageToFormat :=
  refs.map fun ref => ⟨ref.id⟩

/-- Whom and what an answer mentions, before it is resolved. -/
structure UsersChatsChannels where
  channelIds : Finset Nat
  messageIds : Finset Nat
  deriving DecidableEq

namespace UsersChatsChannels

def addChannel (ucc : UsersChatsChannels) (channelId : Nat) : UsersChatsChannels :=
  { ucc with channelIds := insert channelId ucc.channelIds }

def addMessage (ucc : UsersChatsChannels) (contentId : Nat) : UsersChatsChannels :=
  { ucc with messageIds := insert contentId ucc.messageIds }

end UsersChatsChannels

end Piltover.Updates
