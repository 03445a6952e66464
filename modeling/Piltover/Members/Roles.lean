/- source: piltover/app/handlers/channels.py, piltover/app/handlers/messages/invites.py,
     piltover/db/models/channel.py
   digest: The creator, the administrators and the banned of a channel, over whole runs. -/

import Piltover.Foundation.Masks
import Piltover.Foundation.Runs
import Piltover.Members.Administration

set_option autoImplicit false

namespace Piltover.Members

open Piltover.Channels (UserId AccessHash)
open Piltover.Channels.ChatBannedRights (viewMessages)
open Piltover.Foundation
open Piltover.Foundation.Masks
open Piltover.Foundation.Runs

section Claims

/-- The creator is there with all rights, nobody is there who may not view, and the stored count is
that of the administrators who are there. -/
structure Roles (s : Roster) : Prop where
  creator : ∃ p, s.participants.get s.channel.creatorId = some p ∧ p.left = false ∧
    Within creatorRights p.adminRights
  viewing : ∀ p ∈ s.participants, p.left = false → p.bannedRights &&& viewMessages = 0
  counted : s.channel.adminsCount =
    (s.participants.rows.filter fun p => !p.left && p.isAdmin).length

/-- Some participant who is there has the right. -/
def Held (s : Roster) (right : Nat) : Prop :=
  ∃ p ∈ s.participants, p.left = false ∧ p.adminRights.testBit right = true

def Command.Promotes (config : AppConfig) (s : Roster) (c : Command) (userId : UserId) : Prop :=
  match c.request with
  | .editAdmin hash target adminRights rank => ∃ rights,
      Roster.EditAdmin.check config c.env s c.userId hash target adminRights rank =
        .ok (some (userId, rights))
  | .editCreator hash target => Roster.EditCreator.check c.env s c.userId hash target = .ok userId
  | _ => False

/-- The roles are in order all along, whoever comes back is no administrator before being promoted
again, and without the creator nobody gets a right that nobody had. -/
structure RolesAlong (config : AppConfig) (s : Roster) (es : List Command) : Prop where
  roles : HoldsAlong (step config) Roles s es
  returned : ∀ before mid t u, before ++ mid <+: es → runFrom (step config) s before = some t →
    runFrom (step config) t mid = some u → ∀ userId,
      (∃ p, t.participants.get userId = some p ∧ p.left = true) →
      (∃ p, u.participants.get userId = some p ∧ p.left = false ∧ p.adminRights ≠ 0) →
        ∃ front c back v, mid = front ++ c :: back ∧ runFrom (step config) t front = some v ∧
          c.Promotes config v userId
  granted : ∀ before mid t u, before ++ mid <+: es → runFrom (step config) s before = some t →
    runFrom (step config) t mid = some u → (∀ c ∈ mid, c.userId ≠ t.channel.creatorId) →
      ∀ right, Held u right → Held t right

/-- No administrator leaves or is removed, and nobody who is banned from viewing is invited. -/
def Gentle (s : Roster) (config : AppConfig) (c : Command) : Prop :=
  match c.request with
  | .leaveChannel hash => Roster.LeaveChannel.check s c.userId hash = .ok () →
      ∀ p, s.participants.get c.userId = some p → p.adminRights = 0
  | .editBanned hash target bannedRights => ∀ targetId,
      Roster.EditBanned.check s c.userId hash target bannedRights = .ok (some targetId) →
        bannedRights &&& viewMessages ≠ 0 →
          ∀ p, s.participants.get targetId = some p → p.adminRights = 0
  | .inviteToChannel hash users => ∀ added,
      Roster.InviteToChannel.check config c.env s c.userId hash users = .ok added →
        ∀ u ∈ added, ∀ p, s.participants.get u = some p → p.bannedRights &&& viewMessages = 0
  | _ => True

end Claims

structure Tidy (s : Roster) : Prop where
  creator : ∃ p, s.participants.get s.channel.creatorId = some p ∧ p.left = false ∧
    Within creatorRights p.adminRights
  viewing : ∀ u p, s.participants.get u = some p → p.left = false →
    p.bannedRights &&& viewMessages = 0
  gone : ∀ u p, s.participants.get u = some p → p.left = true → p.adminRights = 0
  counted : s.channel.adminsCount = (s.participants.rows.filter fun p => p.isAdmin).length

section Counts

variable {s : Roster}

theorem isAdmin_iff {p : ChatParticipant} : p.isAdmin = true ↔ p.adminRights ≠ 0 := by
  rw [Channels.ChatParticipant.isAdmin, decide_eq_true_iff, Nat.pos_iff_ne_zero]

theorem filter_present_admins (gone : ∀ u p, s.participants.get u = some p → p.left = true →
    p.adminRights = 0) : (s.participants.rows.filter fun p => !p.left && p.isAdmin) =
      s.participants.rows.filter fun p => p.isAdmin := by
  refine List.filter_congr fun p here => ?_
  cases left : p.left with
  | false => rfl
  | true =>
    have none := gone p.userId p (Table.mem_iff_get.mp here) left
    rw [Bool.not_true, Bool.false_and, eq_comm, ← Bool.not_eq_true, isAdmin_iff]
    exact not_not.mpr none

theorem Tidy.roles (tidy : Tidy s) : Roles s := by
  refine ⟨tidy.creator, ?_, ?_⟩
  · intro p here
    exact tidy.viewing p.userId p (Table.mem_iff_get.mp here)
  · rw [filter_present_admins tidy.gone]
    exact tidy.counted

end Counts

section Admission

/-- What joining, inviting and approving have in common: the channel stays, rows keep their rights,
whoever is there stays, and new rows have no rights and no bans. -/
structure Admits (s t : Roster) : Prop where
  channel : t.channel = s.channel
  admins : (t.participants.rows.filter fun p => p.isAdmin).length =
    (s.participants.rows.filter fun p => p.isAdmin).length
  kept : ∀ u p, s.participants.get u = some p → ∃ q, t.participants.get u = some q ∧
    q.adminRights = p.adminRights ∧ q.bannedRights = p.bannedRights ∧ (p.left = false → q.left = false)
  fresh : ∀ u q, s.participants.get u = none → t.participants.get u = some q →
    q.adminRights = 0 ∧ q.bannedRights = 0

variable {s t : Roster}

def LetsIn (s t : Roster) : Prop :=
  ∀ u p q, s.participants.get u = some p → p.left = true → t.participants.get u = some q →
    q.left = false → p.bannedRights &&& viewMessages = 0

theorem Tidy.admits (tidy : Tidy s) (admits : Admits s t) (lets : LetsIn s t) : Tidy t := by
  refine ⟨?_, ?_, ?_, ?_⟩
  · obtain ⟨p, found, here, all⟩ := tidy.creator
    obtain ⟨q, kept, rights, -, stays⟩ := admits.kept _ p found
    rw [admits.channel]
    exact ⟨q, kept, stays here, rights ▸ all⟩
  · intro u q found here
    cases before : s.participants.get u with
    | none =>
      rw [(admits.fresh u q before found).2]
      rfl
    | some p =>
      obtain ⟨q', kept, -, bans, -⟩ := admits.kept u p before
      obtain rfl := Option.some.inj (kept.symm.trans found)
      rw [bans]
      cases left : p.left with
      | false => exact tidy.viewing u p before left
      | true => exact lets u p q' before left found here
  · intro u q found left
    cases before : s.participants.get u with
    | none => exact (admits.fresh u q before found).1
    | some p =>
      obtain ⟨q', kept, rights, -, stays⟩ := admits.kept u p before
      obtain rfl := Option.some.inj (kept.symm.trans found)
      rw [rights]
      refine tidy.gone u p before ?_
      by_contra here
      rw [stays (by simpa using here)] at left
      cases left
  · rw [admits.channel, admits.admins]
    exact tidy.counted

theorem Admits.of_same (channel : t.channel = s.channel) (same : t.participants = s.participants) :
    Admits s t := by
  refine ⟨channel, by rw [same], fun u p found => ⟨p, by rw [same]; exact found, rfl, rfl, id⟩, ?_⟩
  intro u q before found
  rw [same, before] at found
  cases found

theorem Admits.refl (s : Roster) : Admits s s := .of_same rfl rfl

theorem letsIn_of_same (same : t.participants = s.participants) : LetsIn s t := by
  intro u p q before left found here
  rw [same, before] at found
  cases found
  rw [left] at here
  cases here

theorem get_userJoin (env : Surroundings) (s : Roster) (userId : UserId)
    (fromInvite : Option ChatInvite) (u : UserId) :
    (Roster.UserJoin.commit env s userId fromInvite).participants.get u =
      if userId = u then some (((s.participants.get u).getD (.ofUser userId)).joined
        (s.joinInviterId userId fromInvite) (fromInvite.map ChatInvite.id)
        (s.minMessageIdForNewParticipant env))
      else s.participants.get u := by
  refine (Table.get_updateOrCreate _ _ _ _ u).trans ?_
  by_cases same : userId = u
  · refine (if_pos same).trans (Eq.trans ?_ (if_pos same).symm)
    cases s.participants.get u <;> rfl
  · exact (if_neg same).trans (if_neg same).symm

theorem userJoin_admits (env : Surroundings) (s : Roster) (userId : UserId)
    (fromInvite : Option ChatInvite) : Admits s (Roster.UserJoin.commit env s userId fromInvite) := by
  have got := get_userJoin env s userId fromInvite
  refine ⟨rfl, Table.count_updateOrCreate _ rfl fun _ _ => rfl, ?_, ?_⟩
  · intro u p found
    by_cases same : userId = u
    · refine ⟨_, (got u).trans (if_pos same), ?_⟩
      rw [found]
      exact ⟨rfl, rfl, fun _ => rfl⟩
    · exact ⟨p, (got u).trans ((if_neg same).trans found), rfl, rfl, id⟩
  · intro u q before found
    have after := (got u).symm.trans found
    rw [before] at after
    split at after
    · cases after
      exact ⟨rfl, rfl⟩
    · cases after

theorem userJoin_letsIn {env : Surroundings} {s : Roster} {userId : UserId}
    {fromInvite : Option ChatInvite}
    (allowed : ∀ p, s.participants.get userId = some p → p.bannedRights &&& viewMessages = 0) :
    LetsIn s (Roster.UserJoin.commit env s userId fromInvite) := by
  intro u p q before left found here
  by_cases same : userId = u
  · exact allowed p (same ▸ before)
  · have got : (Roster.UserJoin.commit env s userId fromInvite).participants.get u = some p := by
      rw [get_userJoin, if_neg same]
      exact before
    rw [got] at found
    cases found
    rw [left] at here
    cases here

theorem insertMany_admits {t : Roster} {rows : List ChatParticipant}
    (channel : t.channel = s.channel)
    (added : t.participants = s.participants.insertMany rows)
    (plain : ∀ p ∈ rows, p.adminRights = 0 ∧ p.bannedRights = 0) : Admits s t ∧ LetsIn s t := by
  have kept : ∀ u p, s.participants.get u = some p → t.participants.get u = some p := by
    intro u p found
    rw [added, Table.get_insertMany, found, Option.some_or]
  refine ⟨⟨channel, ?_, fun u p found => ⟨p, kept u p found, rfl, rfl, id⟩, ?_⟩, ?_⟩
  · rw [added]
    refine Table.count_insertMany _ fun p listed => ?_
    rw [← Bool.not_eq_true, isAdmin_iff]
    exact not_not.mpr (plain p listed).1
  · intro u q before found
    rw [added, Table.get_insertMany, before, Option.none_or] at found
    exact plain q (List.mem_of_find?_eq_some found)
  · intro u p q before left found here
    rw [kept u p before] at found
    cases found
    rw [left] at here
    cases here

theorem addRequested_admits (s : Roster) (requests : List ChatInviteRequest) :
    Admits s (Roster.AddRequested.commit s requests) ∧
      LetsIn s (Roster.AddRequested.commit s requests) := by
  refine insertMany_admits rfl rfl fun p listed => ?_
  obtain ⟨request, -, rfl⟩ := List.mem_map.mp listed
  exact ⟨rfl, rfl⟩

theorem get_invite (env : Surroundings) (s : Roster) (userId : UserId) (added : List UserId)
    (u : UserId) (p : ChatParticipant) (before : s.participants.get u = some p) :
    (Roster.InviteToChannel.commit env s userId added).participants.get u =
      some (if u ∈ added then
        { p with
          left := false, inviterId := userId, minMessageId := s.minMessageIdForNewParticipant env }
      else p) := by
  have named : p.userId = u := (Table.get_eq_some_iff.mp before).2
  rw [Roster.InviteToChannel.commit, Table.get_modify, Table.get_insertMany, before, Option.some_or,
    Option.map_some]
  by_cases listed : u ∈ added
  · simp [listed, named, before]
  · simp [listed, named]

theorem invite_admits (env : Surroundings) (s : Roster) (userId : UserId) (added : List UserId) :
    Admits s (Roster.InviteToChannel.commit env s userId added) := by
  refine ⟨rfl, ?_, ?_, ?_⟩
  · unfold Roster.InviteToChannel.commit
    rw [Table.count_modify]
    · refine Table.count_insertMany _ fun p listed => ?_
      obtain ⟨u, -, rfl⟩ := List.mem_map.mp listed
      rfl
    · intro p _
      rfl
  · intro u p before
    refine ⟨_, get_invite env s userId added u p before, ?_⟩
    split
    · exact ⟨rfl, rfl, fun _ => rfl⟩
    · exact ⟨rfl, rfl, id⟩
  · intro u q before found
    rw [Roster.InviteToChannel.commit, Table.get_modify, Table.get_insertMany, before,
      Option.none_or] at found
    obtain ⟨p, listed, rfl⟩ := Option.map_eq_some_iff.mp found
    obtain ⟨v, -, rfl⟩ := List.mem_map.mp (List.mem_of_find?_eq_some listed)
    split
    · exact ⟨rfl, rfl⟩
    · exact ⟨rfl, rfl⟩

theorem invite_letsIn {env : Surroundings} {s : Roster} {userId : UserId} {added : List UserId}
    (allowed : ∀ u ∈ added, ∀ p, s.participants.get u = some p →
      p.bannedRights &&& viewMessages = 0) :
    LetsIn s (Roster.InviteToChannel.commit env s userId added) := by
  intro u p q before left found here
  rw [get_invite env s userId added u p before] at found
  by_cases listed : u ∈ added
  · exact allowed u listed p before
  · rw [if_neg listed] at found
    cases found
    rw [left] at here
    cases here

end Admission

section Changes

variable {s : Roster} {userId targetId : UserId}

theorem get_leave (s : Roster) (userId u : UserId) :
    (Roster.LeaveChannel.commit s userId).participants.get u =
      if userId = u then (s.participants.get u).map fun p => { p with left := true }
      else s.participants.get u :=
  Table.get_modify_key s.participants (fun p => { p with left := true }) (fun _ => rfl) userId u

theorem leave_tidy (tidy : Tidy s) (other : s.channel.creatorId ≠ userId)
    (plain : ∀ p, s.participants.get userId = some p → p.adminRights = 0) :
    Tidy (Roster.LeaveChannel.commit s userId) := by
  have got := get_leave s userId
  refine ⟨?_, ?_, ?_, ?_⟩
  · obtain ⟨p, found, rest⟩ := tidy.creator
    exact ⟨p, (got _).trans ((if_neg other.symm).trans found), rest⟩
  · intro u q found here
    rw [got] at found
    split at found
    · obtain ⟨p, -, rfl⟩ := Option.map_eq_some_iff.mp found
      cases here
    · exact tidy.viewing u q found here
  · intro u q found left
    rw [got] at found
    split at found
    · next same =>
        obtain ⟨p, before, rfl⟩ := Option.map_eq_some_iff.mp found
        exact plain p (same ▸ before)
    · exact tidy.gone u q found left
  · refine tidy.counted.trans (Eq.symm ?_)
    unfold Roster.LeaveChannel.commit
    rw [Table.count_modify]
    intro p _
    rfl

theorem get_editBanned (s : Roster) (targetId bannedRights u : Nat) :
    (Roster.EditBanned.commit s targetId bannedRights).participants.get u =
      if targetId = u then some (((s.participants.get u).map fun p => { p with
          bannedRights := bannedRights
          left := p.left || bannedRights &&& viewMessages != 0 }).getD
        ⟨⟨targetId, bannedRights, 0, true⟩, 0, none, none, "", 0⟩)
      else s.participants.get u :=
  Table.get_updateOrCreate _ _ _ _ u

theorem editBanned_tidy {bannedRights : Nat} (tidy : Tidy s) (other : targetId ≠ s.channel.creatorId)
    (plain : bannedRights &&& viewMessages ≠ 0 →
      ∀ p, s.participants.get targetId = some p → p.adminRights = 0) :
    Tidy (Roster.EditBanned.commit s targetId bannedRights) := by
  have got := get_editBanned s targetId bannedRights
  refine ⟨?_, ?_, ?_, ?_⟩
  · obtain ⟨p, found, rest⟩ := tidy.creator
    exact ⟨p, (got _).trans ((if_neg other).trans found), rest⟩
  · intro u q found here
    rw [got] at found
    split at found
    · cases before : s.participants.get u with
      | none =>
        rw [before] at found
        cases found
        cases here
      | some p =>
        rw [before] at found
        cases found
        have seen := (Bool.or_eq_false_iff.mp here).2
        simpa using seen
    · exact tidy.viewing u q found here
  · intro u q found left
    rw [got] at found
    split at found
    · next same =>
        subst same
        cases before : s.participants.get targetId with
        | none =>
          rw [before] at found
          cases found
          rfl
        | some p =>
          rw [before] at found
          cases found
          rcases Bool.or_eq_true_iff.mp left with gone | banned
          · exact tidy.gone targetId p before gone
          · exact plain (bne_iff_ne.mp banned) p before
    · exact tidy.gone u q found left
  · refine tidy.counted.trans (Eq.symm ?_)
    exact Table.count_updateOrCreate (fun p : ChatParticipant => p.isAdmin) rfl fun _ _ => rfl

theorem get_editAdmin (s : Roster) (userId targetId rights : Nat) (rank : String) (u : UserId) :
    (Roster.EditAdmin.commit s userId targetId rights rank).participants.get u =
      if targetId = u then (s.participants.get u).map fun p => { p with
        adminRank := rank, adminRights := rights
        promotedById := if p.promotedById = 0 then userId else p.promotedById }
      else s.participants.get u := by
  unfold Roster.EditAdmin.commit Roster.syncAdminsCount
  rw [Table.get_modify_key]

theorem editAdmin_tidy {rights : Nat} {rank : String} (tidy : Tidy s)
    (present : s.present targetId = true)
    (all : targetId = s.channel.creatorId → Within creatorRights rights) :
    Tidy (Roster.EditAdmin.commit s userId targetId rights rank) := by
  have got := get_editAdmin s userId targetId rights rank
  refine ⟨?_, ?_, ?_, rfl⟩
  · obtain ⟨p, found, here, full⟩ := tidy.creator
    by_cases same : targetId = s.channel.creatorId
    · refine ⟨{ p with
        adminRank := rank, adminRights := rights
        promotedById := if p.promotedById = 0 then userId else p.promotedById }, ?_, here, all same⟩
      show (Roster.EditAdmin.commit s userId targetId rights rank).participants.get
        s.channel.creatorId = _
      rw [got, if_pos same, found]
      rfl
    · exact ⟨p, (got _).trans ((if_neg same).trans found), here, full⟩
  · intro u q found here
    rw [got] at found
    split at found
    · obtain ⟨p, before, rfl⟩ := Option.map_eq_some_iff.mp found
      exact tidy.viewing u p before here
    · exact tidy.viewing u q found here
  · intro u q found left
    rw [got] at found
    split at found
    · next same =>
        obtain ⟨p, before, rfl⟩ := Option.map_eq_some_iff.mp found
        subst same
        rw [Roster.present, before, Option.any_some] at present
        rw [show p.left = true from left] at present
        cases present
    · exact tidy.gone u q found left

theorem get_editCreator (s : Roster) (userId targetId u : UserId) :
    (Roster.EditCreator.commit s userId targetId).participants.get u =
      (s.participants.get u).map fun p =>
        if p.userId == userId || p.userId == targetId then
          { p with adminRights := if p.userId = targetId then creatorRights else 0 }
        else p := by
  unfold Roster.EditCreator.commit Roster.syncAdminsCount
  rw [Table.get_modify]

theorem editCreator_tidy (tidy : Tidy s) (present : s.present targetId = true) :
    Tidy (Roster.EditCreator.commit s userId targetId) := by
  have got := get_editCreator s userId targetId
  refine ⟨?_, ?_, ?_, rfl⟩
  · cases before : s.participants.get targetId with
    | none =>
      rw [Roster.present, before] at present
      cases present
    | some p =>
      have named : p.userId = targetId := (Table.get_eq_some_iff.mp before).2
      rw [Roster.present, before, Option.any_some, Bool.not_eq_true'] at present
      refine ⟨{ p with adminRights := creatorRights }, ?_, present, within_refl _⟩
      refine (got targetId).trans ?_
      simp [before, named]
  · intro u q found here
    rw [got] at found
    obtain ⟨p, before, rfl⟩ := Option.map_eq_some_iff.mp found
    split at here
    · next which =>
        rw [if_pos which]
        exact tidy.viewing u p before here
    · next which =>
        rw [if_neg which]
        exact tidy.viewing u p before here
  · intro u q found left
    rw [got] at found
    obtain ⟨p, before, rfl⟩ := Option.map_eq_some_iff.mp found
    have named : p.userId = u := (Table.get_eq_some_iff.mp before).2
    have same : p.left = true := by
      split at left
      · exact left
      · exact left
    have absent : p.userId ≠ targetId := by
      intro same'
      rw [Roster.present, ← same', named, before, Option.any_some, same] at present
      cases present
    rw [if_neg absent]
    split
    · rfl
    · exact tidy.gone u p before same

end Changes

section Effects

inductive Effect (config : AppConfig) (s : Roster) (c : Command) : Roster → Prop
  | still {t : Roster} (channel : t.channel = s.channel) (same : t.participants = s.participants) :
      Effect config s c t
  | joins (fromInvite : Option ChatInvite) (allowed : ∀ p,
      s.participants.get c.userId = some p → p.bannedRights &&& viewMessages = 0) :
      Effect config s c (Roster.UserJoin.commit c.env s c.userId fromInvite)
  | approves (requests : List ChatInviteRequest) :
      Effect config s c (Roster.AddRequested.commit s requests)
  | invites {hash : AccessHash} {users : List InputUser} {added : List UserId}
      (asked : c.request = .inviteToChannel hash users)
      (checked : Roster.InviteToChannel.check config c.env s c.userId hash users = .ok added) :
      Effect config s c (Roster.InviteToChannel.commit c.env s c.userId added)
  | leaves {hash : AccessHash} (asked : c.request = .leaveChannel hash)
      (checked : Roster.LeaveChannel.check s c.userId hash = .ok ()) :
      Effect config s c (Roster.LeaveChannel.commit s c.userId)
  | bans {hash : AccessHash} {target : InputUser} {rights : Nat} {targetId : UserId}
      (asked : c.request = .editBanned hash target rights)
      (checked : Roster.EditBanned.check s c.userId hash target rights = .ok (some targetId)) :
      Effect config s c (Roster.EditBanned.commit s targetId rights)
  | promotes {hash : AccessHash} {target : InputUser} {asks : Nat} {rank : String}
      {targetId : UserId} {rights : Nat} (asked : c.request = .editAdmin hash target asks rank)
      (checked : Roster.EditAdmin.check config c.env s c.userId hash target asks rank =
        .ok (some (targetId, rights))) :
      Effect config s c (Roster.EditAdmin.commit s c.userId targetId rights rank)
  | succeeds {hash : AccessHash} {target : InputUser} {targetId : UserId}
      (asked : c.request = .editCreator hash target)
      (checked : Roster.EditCreator.check c.env s c.userId hash target = .ok targetId) :
      Effect config s c (Roster.EditCreator.commit s c.userId targetId)

variable {config : AppConfig} {s : Roster} {c : Command}

theorem userJoin_effect {fromInvite : Option ChatInvite}
    (allowed : ∀ p, s.participants.get c.userId = some p → p.bannedRights &&& viewMessages = 0) :
    Effect config s c (s.userJoinChatOrChannel config c.env c.userId fromInvite).left := by
  unfold Roster.userJoinChatOrChannel
  split
  · exact .still rfl rfl
  · exact .joins fromInvite allowed

theorem addRequested_effect {requests : List ChatInviteRequest} {fetched : Bool} :
    Effect config s c (s.addRequestedUsersToChat config requests fetched).left := by
  unfold Roster.addRequestedUsersToChat
  split
  · exact .still rfl rfl
  · split
    · exact .still rfl rfl
    · exact .approves requests

theorem joinChannel_allowed {env : Surroundings} {userId : UserId} {hash : AccessHash}
    (checked : Roster.JoinChannel.check env s userId hash = .ok ()) (p : ChatParticipant)
    (row : s.participants.get userId = some p) : p.bannedRights &&& viewMessages = 0 := by
  unfold Roster.JoinChannel.check at checked
  obtain ⟨-, checked⟩ := check_bind_eq_ok.mp checked
  obtain ⟨-, checked⟩ := check_bind_eq_ok.mp checked
  obtain ⟨unbanned, -⟩ := check_bind_eq_ok.mp checked
  simpa [row] using require_eq_ok.mp unbanned

theorem importChatInvite_allowed {env : Surroundings} {userId : UserId} {hash : Roster.InviteHash}
    {invite : ChatInvite} (checked : Roster.ImportChatInvite.check env s userId hash = .ok invite)
    (p : ChatParticipant) (row : s.participants.get userId = some p) :
    p.bannedRights &&& viewMessages = 0 := by
  unfold Roster.ImportChatInvite.check at checked
  obtain ⟨-, checked⟩ := check_bind_eq_ok.mp checked
  obtain ⟨found, -, checked⟩ := orRaise_bind_eq_ok.mp checked
  obtain ⟨-, checked⟩ := check_bind_eq_ok.mp checked
  obtain ⟨-, checked⟩ := check_bind_eq_ok.mp checked
  obtain ⟨unbanned, -⟩ := check_bind_eq_ok.mp checked
  simpa [row] using require_eq_ok.mp unbanned

theorem handle_effect (config : AppConfig) (s : Roster) (c : Command) :
    Effect config s c (c.handle config s).left := by
  unfold Command.handle
  split
  · unfold Roster.joinChannel
    split
    · exact .still rfl rfl
    · next checked => exact userJoin_effect (joinChannel_allowed checked)
  · next asked =>
      unfold Roster.leaveChannel
      split
      · exact .still rfl rfl
      · next checked => exact .leaves asked checked
  · unfold Roster.importChatInvite
    split
    · exact .still rfl rfl
    · next checked =>
        split
        · dsimp only
          split
          · exact .still rfl rfl
          · exact .still rfl rfl
        · exact userJoin_effect (importChatInvite_allowed checked)
  · unfold Roster.hideChatJoinRequest
    split
    · exact .still rfl rfl
    · split
      · exact addRequested_effect
      · exact .still rfl rfl
  · unfold Roster.hideAllChatJoinRequests
    split
    · exact .still rfl rfl
    · split
      · exact addRequested_effect
      · exact .still rfl rfl
  · next asked =>
      unfold Roster.inviteToChannel
      split
      · exact .still rfl rfl
      · next checked => exact .invites asked checked
  · next asked =>
      unfold Roster.editBanned
      split
      · exact .still rfl rfl
      · exact .still rfl rfl
      · next checked => exact .bans asked checked
  · next asked =>
      unfold Roster.editAdmin
      split
      · exact .still rfl rfl
      · exact .still rfl rfl
      · next checked => exact .promotes asked checked
  · next asked =>
      unfold Roster.editCreator
      split
      · exact .still rfl rfl
      · next checked => exact .succeeds asked checked
  · unfold Roster.exportChatInvite
    split
    · exact .still rfl rfl
    · exact .still rfl rfl
  · unfold Roster.editExportedChatInvite
    split
    · exact .still rfl rfl
    · split
      · exact .still rfl rfl
      · exact .still rfl rfl

end Effects

section Checks

variable {config : AppConfig} {env : Surroundings} {s : Roster} {userId : UserId}
  {hash : AccessHash}

theorem otherUser_ne {failure : Failure} {input : InputUser} {targetId : UserId}
    (resolved : otherUser userId failure input = .ok targetId) : targetId ≠ userId := by
  unfold otherUser at resolved
  split at resolved
  · cases resolved
  · cases resolved
  · split at resolved
    · cases resolved
    · next accepted =>
        cases resolved
        intro same
        simp [same] at accepted

theorem leaveChannel_spec (checked : Roster.LeaveChannel.check s userId hash = .ok ()) :
    s.channel.creatorId ≠ userId ∧ s.present userId = true := by
  unfold Roster.LeaveChannel.check at checked
  obtain ⟨-, checked⟩ := check_bind_eq_ok.mp checked
  obtain ⟨other, present⟩ := check_bind_eq_ok.mp checked
  exact ⟨by simpa using require_eq_ok.mp other, require_eq_ok.mp present⟩

theorem editBanned_spec {target : InputUser} {rights : Nat} {targetId : UserId}
    (checked : Roster.EditBanned.check s userId hash target rights = .ok (some targetId)) :
    targetId ≠ userId ∧ ∀ p, s.participants.get targetId = some p → p.adminRights ≠ 0 →
      userId = s.channel.creatorId := by
  unfold Roster.EditBanned.check at checked
  obtain ⟨-, checked⟩ := check_bind_eq_ok.mp checked
  obtain ⟨participant, -, checked⟩ := (bind_eq_ok _).mp checked
  obtain ⟨-, checked⟩ := check_bind_eq_ok.mp checked
  obtain ⟨found, resolved, checked⟩ := (bind_eq_ok _).mp checked
  have apart := otherUser_ne resolved
  split at checked
  · next absent =>
      cases checked
      refine ⟨apart, fun p row => ?_⟩
      rw [absent] at row
      cases row
  · next p row =>
      split at checked
      · cases checked
      · obtain ⟨allowed, done⟩ := check_bind_eq_ok.mp checked
        cases done
        refine ⟨apart, fun q row' rights => ?_⟩
        obtain rfl := Option.some.inj (row.symm.trans row')
        have passed := require_eq_ok.mp allowed
        rw [isAdmin_iff.mpr rights] at passed
        simpa using passed

/-- Who is promoted is there; nobody but the creator gives a right without having it. -/
theorem editAdmin_spec {target : InputUser} {asks rights : Nat} {rank : String} {targetId : UserId}
    (checked : Roster.EditAdmin.check config env s userId hash target asks rank =
      .ok (some (targetId, rights))) :
    s.present targetId = true ∧ (targetId = s.channel.creatorId → Within creatorRights rights) ∧
      (userId ≠ s.channel.creatorId → ∃ p, s.participants.get userId = some p ∧ p.left = false ∧
        Within rights p.adminRights) := by
  unfold Roster.EditAdmin.check at checked
  obtain ⟨-, checked⟩ := check_bind_eq_ok.mp checked
  obtain ⟨participant, raised, checked⟩ := (bind_eq_ok _).mp checked
  obtain ⟨-, checked⟩ := check_bind_eq_ok.mp checked
  obtain ⟨found, -, checked⟩ := (bind_eq_ok _).mp checked
  obtain ⟨-, checked⟩ := check_bind_eq_ok.mp checked
  obtain ⟨p, row, checked⟩ := orRaise_bind_eq_ok.mp checked
  obtain ⟨-, checked⟩ := check_bind_eq_ok.mp checked
  obtain ⟨within, checked⟩ := check_bind_eq_ok.mp checked
  obtain ⟨-, done⟩ := check_bind_eq_ok.mp checked
  obtain ⟨here, there⟩ := Option.filter_eq_some_iff.mp row
  obtain ⟨mine, present⟩ := Option.filter_eq_some_iff.mp (orRaise_eq_ok.mp raised)
  have allowed := require_eq_ok.mp within
  simp only [Except.ok.injEq] at done
  split at done
  · cases done
  · cases done
    refine ⟨by rw [Roster.present, here]; exact there, ?_, ?_⟩
    · intro same
      rw [Roster.EditAdmin.newRights, if_pos same]
      refine within_iff.mpr fun bit set => ?_
      rw [Nat.testBit_or, set, Bool.or_true]
    · intro other
      refine ⟨participant, mine, by simpa using present, ?_⟩
      have held : Roster.EditAdmin.newRights s targetId asks ||| participant.adminRights =
          participant.adminRights := by simpa [other] using allowed
      exact held

theorem editCreator_spec {target : InputUser} {targetId : UserId}
    (checked : Roster.EditCreator.check env s userId hash target = .ok targetId) :
    s.channel.creatorId = userId ∧ s.present targetId = true := by
  unfold Roster.EditCreator.check at checked
  obtain ⟨-, checked⟩ := check_bind_eq_ok.mp checked
  obtain ⟨creator, checked⟩ := check_bind_eq_ok.mp checked
  obtain ⟨-, checked⟩ := check_bind_eq_ok.mp checked
  obtain ⟨-, checked⟩ := check_bind_eq_ok.mp checked
  obtain ⟨found, -, checked⟩ := (bind_eq_ok _).mp checked
  obtain ⟨present, done⟩ := check_bind_eq_ok.mp checked
  cases done
  exact ⟨by simpa using require_eq_ok.mp creator, require_eq_ok.mp present⟩

end Checks

section Steps

variable {config : AppConfig} {s t : Roster} {c : Command}

theorem Tidy.ban_other (tidy : Tidy s) {targetId : UserId}
    (apart : targetId ≠ c.userId) (only : ∀ p, s.participants.get targetId = some p →
      p.adminRights ≠ 0 → c.userId = s.channel.creatorId) : targetId ≠ s.channel.creatorId := by
  intro same
  obtain ⟨p, row, -, all⟩ := tidy.creator
  have rights : p.adminRights ≠ 0 := by
    intro none
    rw [none] at all
    exact absurd all (by decide)
  have creator := only p (same ▸ row) rights
  exact apart (same.trans creator.symm)

theorem tidy_step (tidy : Tidy s) (gentle : Gentle s config c) (effect : Effect config s c t) :
    Tidy t := by
  cases effect with
  | still channel same => exact tidy.admits (.of_same channel same) (letsIn_of_same same)
  | joins fromInvite allowed =>
    exact tidy.admits (userJoin_admits c.env s c.userId fromInvite) (userJoin_letsIn allowed)
  | approves requests =>
    obtain ⟨admits, lets⟩ := addRequested_admits s requests
    exact tidy.admits admits lets
  | invites asked checked =>
    rw [Gentle, asked] at gentle
    exact tidy.admits (invite_admits _ _ _ _) (invite_letsIn (gentle _ checked))
  | leaves asked checked =>
    rw [Gentle, asked] at gentle
    exact leave_tidy tidy (leaveChannel_spec checked).1 (gentle checked)
  | bans asked checked =>
    rw [Gentle, asked] at gentle
    obtain ⟨apart, only⟩ := editBanned_spec checked
    exact editBanned_tidy tidy (tidy.ban_other apart only) (gentle _ checked)
  | promotes asked checked =>
    obtain ⟨present, all, -⟩ := editAdmin_spec checked
    exact editAdmin_tidy tidy present all
  | succeeds asked checked => exact editCreator_tidy tidy (editCreator_spec checked).2

theorem createChannel_tidy (creatorId id : Nat) (isChannel isSupergroup : Bool) :
    Tidy (Roster.createChannel creatorId id isChannel isSupergroup) := by
  have got : ∀ u, (Roster.createChannel creatorId id isChannel isSupergroup).participants.get u =
      if creatorId = u then some ⟨⟨creatorId, 0, creatorRights, false⟩, 0, none, none, "", 0⟩
      else none := fun u => Table.get_insert rfl u
  refine ⟨⟨_, (got creatorId).trans (if_pos rfl), rfl, within_refl _⟩, ?_, ?_, ?_⟩
  · intro u p found _
    rw [got] at found
    split at found
    · cases found
      exact Nat.zero_and _
    · cases found
  · intro u p found left
    rw [got] at found
    split at found
    · cases found
      cases left
    · cases found
  · show 1 = _
    rw [Roster.createChannel, Table.rows_insert rfl]
    rfl

theorem leave_breaks (tidy : Tidy s) {userId : UserId} {p : ChatParticipant}
    (row : s.participants.get userId = some p) (present : p.left = false)
    (rights : p.adminRights ≠ 0) : ¬ Roles (Roster.LeaveChannel.commit s userId) := by
  intro roles
  obtain ⟨here, named⟩ := Table.get_eq_some_iff.mp row
  have fewer : ((Roster.LeaveChannel.commit s userId).participants.rows.filter
      fun p => !p.left && p.isAdmin).length <
        (s.participants.rows.filter fun p => !p.left && p.isAdmin).length := by
    refine Table.count_modify_lt ?_ (fun q after => ?_) here ?_ ?_ ?_
    · intro q
      rfl
    · cases after
    · exact beq_iff_eq.mpr named
    · rw [present, isAdmin_iff.mpr rights]
      rfl
    · rfl
  have before := tidy.roles.counted
  have after := roles.counted
  have same : (Roster.LeaveChannel.commit s userId).channel = s.channel := rfl
  rw [same] at after
  omega

theorem ban_breaks (tidy : Tidy s) {targetId : UserId} {bannedRights : Nat} {p : ChatParticipant}
    (row : s.participants.get targetId = some p) (rights : p.adminRights ≠ 0)
    (banned : bannedRights &&& viewMessages ≠ 0) :
    ¬ Roles (Roster.EditBanned.commit s targetId bannedRights) := by
  intro roles
  obtain ⟨here, named⟩ := Table.get_eq_some_iff.mp row
  have present : p.left = false := by
    rw [← Bool.not_eq_true]
    intro left
    exact rights (tidy.gone targetId p row left)
  have gone : (bannedRights &&& viewMessages != 0) = true := bne_iff_ne.mpr banned
  have fewer : ((Roster.EditBanned.commit s targetId bannedRights).participants.rows.filter
      fun p => !p.left && p.isAdmin).length <
        (s.participants.rows.filter fun p => !p.left && p.isAdmin).length := by
    unfold Roster.EditBanned.commit
    dsimp only
    rw [Table.updateOrCreate_of_mem (s := p)
      (r := (⟨⟨targetId, bannedRights, 0, true⟩, 0, none, none, "", 0⟩ : ChatParticipant)) row]
    refine Table.count_modify_lt ?_ (fun q after => ?_) here ?_ ?_ ?_
    · rw [gone, Bool.or_true] at after
      cases after
    · exact decide_eq_true named
    · rw [present, isAdmin_iff.mpr rights]
      rfl
    · rw [gone, Bool.or_true]
      rfl
  have before := tidy.roles.counted
  have after := roles.counted
  have same : (Roster.EditBanned.commit s targetId bannedRights).channel = s.channel := rfl
  rw [same] at after
  omega

theorem invite_breaks {env : Surroundings} {userId u : UserId} {added : List UserId}
    {p : ChatParticipant} (listed : u ∈ added) (row : s.participants.get u = some p)
    (banned : p.bannedRights &&& viewMessages ≠ 0) :
    ¬ Roles (Roster.InviteToChannel.commit env s userId added) := by
  intro roles
  have got := get_invite env s userId added u p row
  rw [if_pos listed] at got
  have viewing := roles.viewing _ (Table.get_eq_some_iff.mp got).1
  exact banned (viewing rfl)

theorem broken_of_not_gentle (tidy : Tidy s) (rough : ¬ Gentle s config c) :
    ¬ Roles (c.handle config s).left := by
  unfold Gentle at rough
  unfold Command.handle
  split at rough
  · next hash asked =>
      push Not at rough
      obtain ⟨checked, p, row, rights⟩ := rough
      rw [asked]
      simp only [Roster.leaveChannel, checked]
      have present := (leaveChannel_spec checked).2
      rw [Roster.present, row, Option.any_some, Bool.not_eq_true'] at present
      exact leave_breaks tidy row present rights
  · next hash target bannedRights asked =>
      push Not at rough
      obtain ⟨targetId, checked, banned, p, row, rights⟩ := rough
      rw [asked]
      simp only [Roster.editBanned, checked]
      exact ban_breaks tidy row rights banned
  · next hash users asked =>
      push Not at rough
      obtain ⟨added, checked, u, listed, p, row, banned⟩ := rough
      rw [asked]
      simp only [Roster.inviteToChannel, checked]
      exact invite_breaks listed row banned
  · exact absurd trivial rough

theorem promoted_of_rights (effect : Effect config s c t) {userId : UserId}
    (before : ∀ p, s.participants.get userId = some p → p.adminRights = 0) {q : ChatParticipant}
    (after : t.participants.get userId = some q) (rights : q.adminRights ≠ 0) :
    c.Promotes config s userId := by
  have admitted : Admits s t → False := by
    intro admits
    cases found : s.participants.get userId with
    | none => exact rights (admits.fresh userId q found after).1
    | some p =>
      obtain ⟨q', kept, same, -⟩ := admits.kept userId p found
      obtain rfl := Option.some.inj (kept.symm.trans after)
      exact rights (same.trans (before p found))
  cases effect with
  | still channel same => exact (admitted (.of_same channel same)).elim
  | joins fromInvite allowed => exact (admitted (userJoin_admits _ _ _ _)).elim
  | approves requests => exact (admitted (addRequested_admits s requests).1).elim
  | invites asked checked => exact (admitted (invite_admits _ _ _ _)).elim
  | leaves asked checked =>
    rw [get_leave] at after
    split at after
    · obtain ⟨p, found, rfl⟩ := Option.map_eq_some_iff.mp after
      exact absurd (before p found) rights
    · exact absurd (before q after) rights
  | bans asked checked =>
    rw [get_editBanned] at after
    split at after
    · cases found : s.participants.get userId with
      | none =>
        rw [found] at after
        cases after
        exact absurd rfl rights
      | some p =>
        rw [found] at after
        cases after
        exact absurd (before p found) rights
    · exact absurd (before q after) rights
  | promotes asked checked =>
    rw [get_editAdmin] at after
    split at after
    · next same =>
        subst same
        rw [Command.Promotes, asked]
        exact ⟨_, checked⟩
    · exact absurd (before q after) rights
  | @succeeds hash target targetId asked checked =>
    rw [get_editCreator] at after
    obtain ⟨p, found, rfl⟩ := Option.map_eq_some_iff.mp after
    have named := (Table.get_eq_some_iff.mp found).2
    split at rights
    · next which =>
        by_cases same : p.userId = targetId
        · rw [Command.Promotes, asked]
          rw [← named, same]
          exact checked
        · rw [if_neg same] at rights
          exact absurd rfl rights
    · exact absurd (before p found) rights

theorem held_of_effect (tidy : Tidy s) (effect : Effect config s c t)
    (other : c.userId ≠ s.channel.creatorId) :
    t.channel.creatorId = s.channel.creatorId ∧ ∀ right, Held t right → Held s right := by
  have held : ∀ {u p right}, s.participants.get u = some p → p.left = false →
      p.adminRights.testBit right = true → Held s right := fun found here set =>
    ⟨_, (Table.get_eq_some_iff.mp found).1, here, set⟩
  have unset : ∀ {rights right : Nat}, rights = 0 → ¬ rights.testBit right = true := by
    rintro _ right rfl set
    rw [Nat.zero_testBit] at set
    cases set
  have admitted : Admits s t → ∀ right, Held t right → Held s right := by
    rintro admits right ⟨q, listed, -, set⟩
    have found := Table.mem_iff_get.mp listed
    cases before : s.participants.get q.userId with
    | none => exact absurd set (unset (admits.fresh _ q before found).1)
    | some p =>
      obtain ⟨q', kept, same, -⟩ := admits.kept _ p before
      obtain rfl := Option.some.inj (kept.symm.trans found)
      rw [same] at set
      cases left : p.left with
      | false => exact held before left set
      | true => exact absurd set (unset (tidy.gone _ p before left))
  cases effect with
  | still channel same => exact ⟨by rw [channel], admitted (.of_same channel same)⟩
  | joins fromInvite allowed => exact ⟨rfl, admitted (userJoin_admits _ _ _ _)⟩
  | approves requests => exact ⟨rfl, admitted (addRequested_admits s requests).1⟩
  | invites asked checked => exact ⟨rfl, admitted (invite_admits _ _ _ _)⟩
  | leaves asked checked =>
    refine ⟨rfl, ?_⟩
    rintro right ⟨q, listed, here, set⟩
    have found := Table.mem_iff_get.mp listed
    rw [get_leave] at found
    split at found
    · obtain ⟨p, -, rfl⟩ := Option.map_eq_some_iff.mp found
      cases here
    · exact held found here set
  | bans asked checked =>
    refine ⟨rfl, ?_⟩
    rintro right ⟨q, listed, here, set⟩
    have found := Table.mem_iff_get.mp listed
    rw [get_editBanned] at found
    split at found
    · cases before : s.participants.get q.userId with
      | none =>
        rw [before] at found
        cases found
        cases here
      | some p =>
        rw [before, Option.map_some, Option.getD_some, Option.some.injEq] at found
        rw [← found] at here set
        exact held before (Bool.or_eq_false_iff.mp here).1 set
    · exact held found here set
  | promotes asked checked =>
    refine ⟨rfl, ?_⟩
    rintro right ⟨q, listed, here, set⟩
    obtain ⟨-, -, granted⟩ := editAdmin_spec checked
    have found := Table.mem_iff_get.mp listed
    rw [get_editAdmin] at found
    split at found
    · obtain ⟨p, -, changed⟩ := Option.map_eq_some_iff.mp found
      rw [← changed] at set
      obtain ⟨giver, mine, present, within⟩ := granted other
      exact held mine present (within_iff.mp within right set)
    · exact held found here set
  | succeeds asked checked => exact absurd (editCreator_spec checked).1.symm other

end Steps

section Runs

variable {config : AppConfig}

theorem step_effect {s t : Roster} {c : Command} (happens : step config s c = some t) :
    Effect config s c t := by
  cases happens
  exact handle_effect config s c

theorem tidy_run {s t : Roster} {es : List Command} (tidy : Tidy s)
    (meets : StepsMeet (step config) (fun s c => Gentle s config c) s es)
    (run : runFrom (step config) s es = some t) : Tidy t :=
  run_invariant (fun _ _ _ tidy gentle happens => tidy_step tidy gentle (step_effect happens))
    tidy meets run

theorem promoted_run {s t : Roster} {es : List Command} {userId : UserId}
    (run : runFrom (step config) s es = some t)
    (before : ∀ p, s.participants.get userId = some p → p.adminRights = 0) {q : ChatParticipant}
    (after : t.participants.get userId = some q) (rights : q.adminRights ≠ 0) :
    ∃ front c back v, es = front ++ c :: back ∧ runFrom (step config) s front = some v ∧
      c.Promotes config v userId := by
  induction es generalizing s with
  | nil =>
    cases run
    exact absurd (before q after) rights
  | cons c es ih =>
    obtain ⟨m, happens, rest⟩ := runFrom_cons_some.mp run
    by_cases promotes : c.Promotes config s userId
    · exact ⟨[], c, es, s, rfl, rfl, promotes⟩
    · have still : ∀ p, m.participants.get userId = some p → p.adminRights = 0 := by
        intro p found
        by_contra got
        exact promotes (promoted_of_rights (step_effect happens) before found got)
      obtain ⟨front, d, back, v, rfl, reach, promoted⟩ := ih rest still
      exact ⟨c :: front, d, back, v, rfl, runFrom_cons_some.mpr ⟨m, happens, reach⟩, promoted⟩

theorem held_run {s t : Roster} {es : List Command} (tidy : Tidy s)
    (meets : StepsMeet (step config) (fun s c => Gentle s config c) s es)
    (run : runFrom (step config) s es = some t)
    (others : ∀ c ∈ es, c.userId ≠ s.channel.creatorId) {right : Nat} (held : Held t right) :
    Held s right := by
  induction es generalizing s with
  | nil =>
    cases run
    exact held
  | cons c es ih =>
    obtain ⟨m, happens, rest⟩ := runFrom_cons_some.mp run
    obtain ⟨gentle, later⟩ := (stepsMeet_cons happens).mp meets
    have effect := step_effect happens
    obtain ⟨creator, back⟩ := held_of_effect tidy effect (others c List.mem_cons_self)
    apply back
    refine ih (tidy_step tidy gentle effect) later rest fun d listed => ?_
    rw [creator]
    exact others d (List.mem_cons_of_mem c listed)

theorem gentle_parts {s t u : Roster} {es before mid : List Command} (tidy : Tidy s)
    (meets : StepsMeet (step config) (fun s c => Gentle s config c) s es)
    (shorter : before ++ mid <+: es) (first : runFrom (step config) s before = some t)
    (second : runFrom (step config) t mid = some u) :
    Tidy t ∧ StepsMeet (step config) (fun s c => Gentle s config c) t mid := by
  obtain ⟨tail, rfl⟩ := shorter
  rw [List.append_assoc, stepsMeet_append first, stepsMeet_append second] at meets
  exact ⟨tidy_run tidy meets.1 first, meets.2.1⟩

/-- The roles of a channel are in order along a run exactly when, in the run, no administrator
leaves or is removed, and nobody who is banned from viewing is invited. -/
theorem rolesAlong_iff_gentle (config : AppConfig) (creatorId id : Nat)
    (isChannel isSupergroup : Bool) (es : List Command) :
    RolesAlong config (.createChannel creatorId id isChannel isSupergroup) es ↔
      StepsMeet (step config) (fun s c => Gentle s config c)
        (.createChannel creatorId id isChannel isSupergroup) es := by
  have start := createChannel_tidy creatorId id isChannel isSupergroup
  have goes : ∀ s c, ∃ t, step config s c = some t := fun s c => ⟨_, rfl⟩
  obtain ⟨_, run⟩ := runFrom_total goes (.createChannel creatorId id isChannel isSupergroup) es
  have along := holdsAlong_iff_stepsMeet (fun s (tidy : Tidy s) => tidy.roles)
    (fun _ _ _ tidy gentle happens => tidy_step tidy gentle (step_effect happens))
    (fun s c t tidy rough happens => ?_) start run
  · constructor
    · intro all
      exact along.mp all.roles
    · intro meets
      refine ⟨along.mpr meets, ?_, ?_⟩
      · intro before mid t u shorter first second userId away back
        obtain ⟨p, row, left⟩ := away
        obtain ⟨q, after, -, rights⟩ := back
        obtain ⟨tidy, -⟩ := gentle_parts start meets shorter first second
        refine promoted_run second (fun p' found => ?_) after rights
        obtain rfl := Option.some.inj (row.symm.trans found)
        exact tidy.gone userId p row left
      · intro before mid t u shorter first second others right held
        obtain ⟨tidy, gentle⟩ := gentle_parts start meets shorter first second
        exact held_run tidy gentle second others held
  · cases happens
    exact broken_of_not_gentle tidy rough

end Runs

section Samples

/-- Nothing stands in the way of a request. -/
def openSurroundings : Surroundings where
  now := 0
  hasUsername := true
  lastChannelMessageId := none
  channelsCount := fun _ => 0
  userExists := fun _ => true
  mayInvite := fun _ _ => true
  hasPeer := fun _ _ => true
  linked := none
  password := fun _ => .ok ()

/-- A user joins by the username, is made an administrator, and leaves. -/
def administratorLeaves : List Command :=
  [⟨2, .joinChannel .valid, openSurroundings⟩,
    ⟨1, .editAdmin .valid (.user 2 true) adminBanUsers "", openSurroundings⟩,
    ⟨2, .leaveChannel .valid, openSurroundings⟩]

/-- The administrator who has left is still counted. -/
theorem administratorLeaves_counted :
    ¬ RolesAlong ⟨500, 100, 10⟩ (.createChannel 1 1 false true) administratorLeaves := by
  intro along
  have last := along.roles administratorLeaves _ (List.prefix_refl _) rfl
  exact absurd last.counted (by decide)

end Samples

end Piltover.Members
