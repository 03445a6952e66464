/- source: piltover/db/models/chat_base.py, piltover/db/models/channel.py
   digest: Rights as bit masks, and who may see, post to and manage a chat. -/

import Piltover.Foundation.Masks
import Mathlib.Tactic.Common

set_option autoImplicit false

namespace Piltover.Channels

open Piltover.Foundation.Masks

abbrev UserId := Nat

namespace ChatBannedRights

def none : Nat := 0
def viewMessages : Nat := 1 <<< 0
def sendMessages : Nat := 1 <<< 1
def sendMedia : Nat := 1 <<< 2
def sendStickers : Nat := 1 <<< 3
def sendGifs : Nat := 1 <<< 4
def sendPolls : Nat := 1 <<< 8
def sendPhotos : Nat := 1 <<< 19
def sendVideos : Nat := 1 <<< 20
def sendRoundvideos : Nat := 1 <<< 21
def sendAudios : Nat := 1 <<< 22
def sendVoices : Nat := 1 <<< 23
def sendDocs : Nat := 1 <<< 24
def sendPlain : Nat := 1 <<< 25

end ChatBannedRights

namespace ChatAdminRights

def none : Nat := 0
def changeInfo : Nat := 1 <<< 0
def postMessages : Nat := 1 <<< 1

end ChatAdminRights

/-- A row that connects a user to a chat or a channel, also after the user has left. -/
structure ChatParticipant where
  userId : UserId
  bannedRights : Nat
  adminRights : Nat
  left : Bool
  deriving DecidableEq, Repr

/-- What `check_access_hash` makes of the hash in a request; a channel may be named without one. -/
inductive AccessHash
  | zero | valid | invalid
  deriving DecidableEq, Repr

/-- `Channel.from_input`: without a hash only somebody who is in the channel reaches it. -/
def AccessHash.reaches (hash : AccessHash) (participant : Option ChatParticipant) : Bool :=
  match hash with
  | .zero => participant.any fun p => !p.left
  | .valid => true
  | .invalid => false

def ChatParticipant.isAdmin (p : ChatParticipant) : Bool := decide (0 < p.adminRights)

/-- What basic groups and channels share. -/
structure ChatBase where
  creatorId : UserId
  bannedRights : Nat
  deriving DecidableEq, Repr

structure Channel extends ChatBase where
  id : Nat
  channel : Bool
  supergroup : Bool
  nojoinAllowView : Bool
  hiddenPrehistory : Bool
  joinToSend : Bool
  discussionId : Option Nat
  isDiscussion : Bool
  slowmodeSeconds : Option Nat
  deleted : Bool
  version : Nat
  deriving DecidableEq, Repr

/-- `models.Chat | models.Channel`. -/
inductive ChatOrChannel
  | chat (c : ChatBase)
  | channel (c : Channel)
  deriving DecidableEq, Repr

namespace ChatOrChannel

def base : ChatOrChannel → ChatBase
  | .chat c => c
  | .channel c => c.toChatBase

/-- `isinstance(self, models.Channel) and self.channel`. -/
def isBroadcast : ChatOrChannel → Bool
  | .chat _ => false
  | .channel c => c.channel

def checkRights (self : ChatOrChannel) (participant : Option ChatParticipant)
    (admin regular : Nat) : Bool :=
  match participant with
  | none => (self.base.bannedRights &&& regular) == 0
  | some p =>
    if self.base.creatorId == p.userId then true
    else
      let adminHasPermission := (p.adminRights &&& admin) == admin
      if self.isBroadcast && decide (admin > 0) then
        if !p.isAdmin then false else adminHasPermission
      else if (p.bannedRights &&& regular) > 0 then false
      else if adminHasPermission then true
      else (self.base.bannedRights &&& regular) == 0

def canViewMessages (self : ChatOrChannel) (participant : Option ChatParticipant) : Bool :=
  match self, participant with
  | .chat _, none => false
  | .channel c, none => c.nojoinAllowView
  | .chat c, some p =>
    if p.left then false
    else checkRights (.chat c) (some p) ChatAdminRights.none ChatBannedRights.viewMessages
  | .channel c, some p =>
    if p.left then c.nojoinAllowView
    else checkRights (.channel c) (some p) ChatAdminRights.none ChatBannedRights.viewMessages

def checkCanSend (self : ChatOrChannel) (participant : Option ChatParticipant) : Bool :=
  if !self.canViewMessages participant then false
  else
    match self, participant with
    | .chat _, none => false
    | .channel c, none => if c.isDiscussion && c.joinToSend then c.nojoinAllowView else true
    | _, some _ => true

def canSendMessages (self : ChatOrChannel) (participant : Option ChatParticipant) : Bool :=
  if !self.checkCanSend participant then false
  else self.checkRights participant ChatAdminRights.postMessages ChatBannedRights.sendMessages

def canSendPlain (self : ChatOrChannel) (participant : Option ChatParticipant) : Bool :=
  if !self.canSendMessages participant then false
  else self.checkRights participant ChatAdminRights.postMessages ChatBannedRights.sendPlain

def canSendMedia (self : ChatOrChannel) (participant : Option ChatParticipant)
    (mediaType : Nat) : Bool :=
  if !self.canSendMessages participant then false
  else self.checkRights participant ChatAdminRights.postMessages
    (ChatBannedRights.sendMedia ||| mediaType)

def getParticipant (rows : List ChatParticipant) (user : UserId) : Option ChatParticipant :=
  rows.find? fun p => p.userId == user && !p.left

/-! ### What the check comes to for a channel -/

theorem checkRights_none_iff (c : Channel) (admin regular : Nat) :
    (channel c).checkRights none admin regular = true ↔ Apart c.bannedRights regular := by
  simp [checkRights, base, Apart]

/-- A broadcast channel asks for the admin right; a group for the admin right or no default ban,
and for no personal ban. -/
theorem checkRights_some_iff (c : Channel) (p : ChatParticipant) {admin : Nat}
    (positive : 0 < admin) (regular : Nat) :
    (channel c).checkRights (some p) admin regular = true ↔
      c.creatorId = p.userId ∨
        if c.channel = true then Within admin p.adminRights
        else Apart p.bannedRights regular ∧
          (Within admin p.adminRights ∨ Apart c.bannedRights regular) := by
  have isAdmin : Within admin p.adminRights → p.isAdmin = true := fun within =>
    decide_eq_true (pos_of_within within positive)
  by_cases creator : c.creatorId = p.userId
  · simp [checkRights, base, creator]
  · cases broadcast : c.channel with
    | true =>
      simp only [checkRights, base, isBroadcast, creator, broadcast, positive, beq_iff_eq,
        and_eq_right_iff, gt_iff_lt, false_or, decide_true, Bool.and_self, if_true, if_false]
      cases known : p.isAdmin with
      | true => simp [and_eq_right_iff]
      | false =>
        have refused : ¬ Within admin p.adminRights := by
          intro within
          rw [isAdmin within] at known
          cases known
        simp [refused]
    | false =>
      simp only [checkRights, base, isBroadcast, creator, broadcast, beq_iff_eq,
        and_eq_right_iff, gt_iff_lt, false_or, Bool.false_and, Bool.false_eq_true, if_false]
      by_cases banned : Apart p.bannedRights regular
      · have allowed : ¬ 0 < p.bannedRights &&& regular := by
          rw [show p.bannedRights &&& regular = 0 from banned]
          exact Nat.lt_irrefl 0
        by_cases within : Within admin p.adminRights
        · simp [banned, allowed, within]
        · have plain : Apart c.bannedRights regular ↔ c.bannedRights &&& regular = 0 := Iff.rfl
          simp [banned, allowed, within, plain]
      · have refused : 0 < p.bannedRights &&& regular := Nat.pos_of_ne_zero banned
        simp [banned, refused]

end ChatOrChannel

end Piltover.Channels
