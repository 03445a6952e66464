/- source: piltover/app/handlers/channels.py, piltover/app/handlers/messages/invites.py,
     piltover/db/models/chat_invite.py
   digest: Joining a channel in two halves, and the limits of groups and channels over whole runs. -/

import Piltover.Chats.Entrance
import Piltover.Members.Ways

set_option autoImplicit false

namespace Piltover.Members

open Piltover.Channels (UserId AccessHash)
open Piltover.Chats (Door)
open Piltover.Foundation
open Piltover.Foundation.Admission
open Piltover.Foundation.Runs

/-- The invite can be used at the time. -/
def ChatInvite.valid (invite : ChatInvite) (now : Int) : Bool :=
  !invite.revoked && invite.expiresAt.all fun expiresAt => decide (now ≤ expiresAt)

def ChatInvite.revoke (invite : ChatInvite) : ChatInvite := { invite with revoked := true }

namespace Roster

/-- The calls that let users into a channel. -/
inductive Call
  | joinChannel (userId : UserId) (hash : AccessHash) (env : Surroundings)
  | importChatInvite (userId : UserId) (hash : InviteHash) (env : Surroundings)
  | hideChatJoinRequest (userId : UserId) (hash : AccessHash) (requester : Option UserId) (now : Int)
  | hideAllChatJoinRequests (userId : UserId) (hash : AccessHash) (link : Option InviteHash)
      (now : Int)
  | inviteToChannel (userId : UserId) (hash : AccessHash) (users : List InputUser)
      (env : Surroundings)

/-- What is left to write once a call has passed its checks; an invitation has looked up which of
the users have a row. -/
inductive Ticket
  | join (userId : UserId) (fromInvite : Option ChatInvite) (env : Surroundings)
  | approved (requests : List ChatInviteRequest)
  | invited (userId : UserId) (known fresh : List UserId) (env : Surroundings)

/-- What other requests do to the rows that the calls read. -/
inductive Change
  | leaves (userId : UserId)
  | bans (userId : UserId) (bannedRights : Nat)
  | revokes (inviteId : Nat)
  | asks (userId : UserId) (inviteId : Nat)
  | dismisses (userId : UserId)
  | setJoinRequest (enabled : Bool)

variable (config : AppConfig) (s : Roster)

/-- The checks of a call, up to its first write. -/
def Call.check : Call → Option Ticket
  | .joinChannel userId hash env =>
    match JoinChannel.check env s userId hash, UserJoin.check config env s userId with
    | .ok (), .ok () => some (.join userId none env)
    | _, _ => none
  | .importChatInvite userId hash env =>
    match ImportChatInvite.check env s userId hash, UserJoin.check config env s userId with
    | .ok invite, .ok () =>
      if invite.requestNeeded || s.channel.joinRequest then none
      else some (.join userId (some invite) env)
    | _, _ => none
  | .hideChatJoinRequest userId hash requester _ =>
    match HideChatJoinRequest.check s userId hash requester with
    | .error _ => none
    | .ok request =>
      match AddRequested.check config s [request] true with
      | .error _ => none
      | .ok () => some (.approved [request])
  | .hideAllChatJoinRequests userId hash link _ =>
    match HideAllChatJoinRequests.check s userId hash link with
    | .error _ => none
    | .ok requests =>
      match AddRequested.check config s requests false with
      | .error _ => none
      | .ok () => some (.approved requests)
  | .inviteToChannel userId hash users env =>
    match InviteToChannel.check config env s userId hash users with
    | .error _ => none
    | .ok added => some (.invited userId
        (added.filter fun u => (s.participants.get u).isSome)
        (added.filter fun u => (s.participants.get u).isNone) env)

/-- What `invite_to_channel` writes, with the rows it has looked up before. -/
def InviteToChannel.write (env : Surroundings) (userId : UserId) (known fresh : List UserId) :
    Roster :=
  let minMessageId := s.minMessageIdForNewParticipant env
  let added := known ++ fresh
  { s with
    participants := (s.participants.insertMany (fresh.map fun u =>
        { ChatParticipant.ofUser u with
          inviterId := userId, minMessageId := minMessageId })).modify
      (fun p => known.contains p.userId)
      (fun p => { p with left := false, inviterId := userId, minMessageId := minMessageId })
      fun _ => rfl
    requests := s.withoutRequests added
    dialogs := unhide s.dialogs added
    subscribed := s.subscribed ++ added }

def Ticket.commit : Ticket → Roster
  | .join userId fromInvite env => UserJoin.commit env s userId fromInvite
  | .approved requests => AddRequested.commit s requests
  | .invited userId known fresh env => InviteToChannel.write s env userId known fresh

def Change.apply : Change → Roster
  | .leaves userId => LeaveChannel.commit s userId
  | .bans userId bannedRights => EditBanned.commit s userId bannedRights
  | .revokes inviteId =>
    let invites := s.invites.modify (fun invite => invite.id == inviteId) ChatInvite.revoke
      fun _ => rfl
    { s with invites := invites }
  | .asks userId inviteId => { s with requests := s.requests ++ [⟨userId, inviteId⟩] }
  | .dismisses userId => { s with requests := s.withoutRequests [userId] }
  | .setJoinRequest enabled => { s with channel.joinRequest := enabled }

def presentUsers : Finset UserId :=
  ((s.participants.rows.filter fun p => !p.left).map fun p => p.userId).toFinset

def joinDoor : Option ChatInvite → Door
  | none => .username
  | some invite => .link invite.id

/-- Whom the writes let in: users who are not there, and without a row when they are approved or
when they had none before. -/
def Ticket.comers : Ticket → List (UserId × Door)
  | .join userId fromInvite _ => if s.present userId then [] else [(userId, joinDoor fromInvite)]
  | .approved requests =>
    (((requests.map ChatInviteRequest.userId).dedup).filter fun u =>
      (s.participants.get u).isNone).map fun userId => (userId, .approval
        (((requests.find? fun request => request.userId == userId).map
          ChatInviteRequest.inviteId).getD 0))
  | .invited _ known fresh _ =>
    (((known.filter fun u => (s.participants.get u).any fun p => p.left) ++
      fresh.filter fun u => (s.participants.get u).isNone).dedup).map fun u => (u, .brought)

def mayEnter (now : Int) : Door → Bool
  | .username => !s.channel.joinRequest
  | .brought => true
  | .link inviteId => (s.invites.get inviteId).any fun invite =>
    invite.valid now && !invite.requestNeeded && !s.channel.joinRequest
  | .approval inviteId => (s.invites.get inviteId).any fun invite => invite.valid now

def quota (inviteId : Nat) : Option Int := (s.invites.get inviteId).bind ChatInvite.usageLimit

end Roster

section Rows

variable {s t : Roster} {u : UserId}

theorem mem_presentUsers : u ∈ s.presentUsers ↔ s.present u = true := by
  simp only [Roster.presentUsers, List.mem_toFinset, List.mem_map, List.mem_filter,
    Bool.not_eq_true', Roster.present, Option.any_eq_true]
  constructor
  · rintro ⟨p, ⟨row, here⟩, named⟩
    exact ⟨p, Table.get_eq_some_iff.mpr ⟨row, named⟩, here⟩
  · rintro ⟨p, found, here⟩
    obtain ⟨row, named⟩ := Table.get_eq_some_iff.mp found
    exact ⟨p, ⟨row, here⟩, named⟩

theorem card_presentUsers_le (s : Roster) : s.presentUsers.card ≤ s.presentCount := by
  refine (List.toFinset_card_le _).trans ?_
  rw [List.length_map]
  exact le_rfl

theorem get_write (env : Surroundings) (userId : UserId) (known fresh : List UserId) :
    (Roster.InviteToChannel.write s env userId known fresh).participants.get u =
      ((s.participants.get u).or (if u ∈ fresh then some { ChatParticipant.ofUser u with
        inviterId := userId, minMessageId := s.minMessageIdForNewParticipant env } else none)).map
      fun p => if u ∈ known then
        { p with
          left := false, inviterId := userId, minMessageId := s.minMessageIdForNewParticipant env }
      else p := by
  rw [Roster.InviteToChannel.write, Table.get_modify, Table.get_insertMany,
    Table.find?_map_key fun _ => rfl]
  refine Option.map_congr fun p found => ?_
  have named : p.userId = u := by
    rcases Option.or_eq_some_iff.mp found with row | ⟨-, new⟩
    · exact (Table.get_eq_some_iff.mp row).2
    · split at new
      · cases new
        rfl
      · cases new
  simp [named]

theorem present_write {env : Surroundings} {userId : UserId} {known fresh : List UserId} :
    (Roster.InviteToChannel.write s env userId known fresh).present u = true ↔
      s.present u = true ∨ (u ∈ known ∧ (s.participants.get u).any fun p => p.left) ∨
        u ∈ fresh ∧ s.participants.get u = none := by
  rw [Roster.present, get_write]
  cases before : s.participants.get u with
  | none =>
    by_cases listed : u ∈ fresh
    · by_cases looked : u ∈ known
      · simp [listed, looked]
      · simp [listed, looked, ChatParticipant.ofUser]
    · simp [listed, Roster.present, before]
  | some p =>
    by_cases looked : u ∈ known
    · cases left : p.left with
      | false => simp [looked, Roster.present, before, left]
      | true => simp [looked, left]
    · simp [looked, Roster.present, before]

theorem present_userJoin {env : Surroundings} {userId : UserId} {fromInvite : Option ChatInvite} :
    (Roster.UserJoin.commit env s userId fromInvite).present u = true ↔
      s.present u = true ∨ u = userId := by
  rw [(userJoin_agrees env s userId fromInvite).exactly u]
  simp

theorem present_addRequested {requests : List ChatInviteRequest} :
    (Roster.AddRequested.commit s requests).present u = true ↔ s.present u = true ∨
      u ∈ requests.map ChatInviteRequest.userId ∧ s.participants.get u = none := by
  cases before : s.participants.get u with
  | some p =>
    rw [present_of_get (get_addRequested_some before), present_of_get before]
    simp
  | none =>
    obtain ⟨some_, plain⟩ := get_addRequested_none requests before
    rw [present_of_none before, ← List.contains_iff_mem, ← some_, Roster.present]
    cases found : (Roster.AddRequested.commit s requests).participants.get u with
    | none => simp
    | some p => simp [(plain p found).1]

end Rows

section Halls

variable (s : Roster)

theorem present_commit (k : Roster.Ticket) : (k.commit s).presentUsers =
    s.presentUsers ∪ ((k.comers s).map Prod.fst).toFinset := by
  ext u
  rw [Finset.mem_union, List.mem_toFinset, mem_presentUsers, mem_presentUsers]
  cases k with
  | join userId fromInvite env =>
    refine present_userJoin.trans ?_
    simp only [Roster.Ticket.comers]
    split
    · next here =>
        simp only [List.map_nil, List.not_mem_nil, or_false]
        exact ⟨fun either => either.elim id fun same => same ▸ here, .inl⟩
    · simp
  | approved requests =>
    refine present_addRequested.trans ?_
    simp [Roster.Ticket.comers]
  | invited userId known fresh env =>
    refine present_write.trans ?_
    simp [Roster.Ticket.comers]

theorem comers_absent (k : Roster.Ticket) (c : UserId × Door) (comes : c ∈ k.comers s) :
    c.1 ∉ s.presentUsers := by
  rw [mem_presentUsers]
  cases k with
  | join userId fromInvite env =>
    simp only [Roster.Ticket.comers] at comes
    split at comes
    · cases comes
    · next absent =>
        rw [List.mem_singleton.mp comes]
        exact absent
  | approved requests =>
    obtain ⟨u, listed, rfl⟩ := List.mem_map.mp comes
    have none_ := Option.isNone_iff_eq_none.mp (List.mem_filter.mp listed).2
    rw [present_of_none none_]
    exact Bool.false_ne_true
  | invited userId known fresh env =>
    obtain ⟨u, listed, rfl⟩ := List.mem_map.mp comes
    rcases List.mem_append.mp (List.mem_dedup.mp listed) with looked | new
    · obtain ⟨p, found, left⟩ := (Option.any_eq_true _ _).mp (List.mem_filter.mp looked).2
      rw [present_of_get found, left]
      exact Bool.false_ne_true
    · have none_ := Option.isNone_iff_eq_none.mp (List.mem_filter.mp new).2
      rw [present_of_none none_]
      exact Bool.false_ne_true

theorem comers_nodup (k : Roster.Ticket) : ((k.comers s).map Prod.fst).Nodup := by
  cases k with
  | join userId fromInvite env =>
    simp only [Roster.Ticket.comers]
    split
    · exact List.nodup_nil
    · exact List.nodup_singleton _
  | approved requests =>
    rw [Roster.Ticket.comers, List.map_map]
    exact (List.map_id _).symm ▸ (List.nodup_dedup _).filter _
  | invited userId known fresh env =>
    rw [Roster.Ticket.comers, List.map_map]
    exact (List.map_id _).symm ▸ List.nodup_dedup _

theorem change_present (c : Roster.Change) : (c.apply s).presentUsers ⊆ s.presentUsers := by
  intro u here
  rw [mem_presentUsers] at here ⊢
  cases c with
  | leaves userId =>
    have got : (Roster.Change.apply s (.leaves userId)).participants.get u = _ :=
      get_leave s userId u
    rw [Roster.present, got] at here
    split at here
    · rw [Option.any_map] at here
      simp at here
    · exact here
  | bans userId bannedRights =>
    have got : (Roster.Change.apply s (.bans userId bannedRights)).participants.get u = _ :=
      get_editBanned s userId bannedRights u
    rw [Roster.present, got] at here
    split at here
    · cases before : s.participants.get u with
      | none =>
        rw [before] at here
        cases here
      | some p =>
        rw [before] at here
        rw [present_of_get before]
        cases left : p.left with
        | false => rfl
        | true => simp [left] at here
    · exact here
  | revokes inviteId => exact here
  | asks userId inviteId => exact here
  | dismisses userId => exact here
  | setJoinRequest enabled => exact here

theorem change_quota (c : Roster.Change) (inviteId : Nat) :
    (c.apply s).quota inviteId = s.quota inviteId := by
  have revoked : ∀ which : ChatInvite → Bool,
      ((s.invites.modify which (fun invite => { invite with revoked := true }) fun _ => rfl).get
        inviteId).bind ChatInvite.usageLimit = (s.invites.get inviteId).bind ChatInvite.usageLimit := by
    intro which
    rw [Table.get_modify, Option.bind_map]
    refine congrArg (Option.bind _) ?_
    ext invite
    simp only [Function.comp]
    split
    · rfl
    · rfl
  cases c with
  | leaves userId => exact revoked _
  | bans userId bannedRights => rfl
  | revokes inviteId => exact revoked _
  | asks userId inviteId => rfl
  | dismisses userId => rfl
  | setJoinRequest enabled => rfl

/-- A channel, and how users come into it. -/
def channelHall (config : AppConfig) :
    Hall Roster Roster.Call Roster.Ticket Roster.Change UserId Door Nat Int where
  check s call := call.check config s
  commit s k := k.commit s
  change s c := c.apply s
  present := Roster.presentUsers
  capacity _ := config.superGroupMemberLimit
  quota := Roster.quota
  pass := Door.invite
  mayEnter := Roster.mayEnter
  comers s k := k.comers s
  commit_present := present_commit
  comers_absent := comers_absent
  comers_nodup := comers_nodup
  commit_capacity _ _ := rfl
  commit_quota s k i := by cases k <;> rfl
  change_present := change_present
  change_capacity _ _ := rfl
  change_quota := change_quota

end Halls

section Fresh

variable {config : AppConfig} {s : Roster} {env : Surroundings} {userId : UserId}

abbrev ChannelSite := Site Roster Roster.Call Roster.Ticket UserId Door

/-- What the checks of a call leave open: that the limit is not just reached when one more joins,
that nobody joins by the username where requests are required, that the invite does not expire
before the commit, that approved requests come with invites that can still be used, and how often
the invites were used. -/
def Roster.Ticket.Spared (config : AppConfig) (site : ChannelSite) (k : Roster.Ticket)
    (now : Int) : Prop :=
  match k with
  | .join _ fromInvite _ => site.state.presentUsers.card ≠ config.superGroupMemberLimit ∧
      (fromInvite = none → site.state.channel.joinRequest = false) ∧
        (∀ invite ∈ fromInvite, ∀ expiresAt ∈ invite.expiresAt, now ≤ expiresAt) ∧
          (channelHall config).PassesLast site k now
  | .approved _ => (∀ c ∈ k.comers site.state, site.state.mayEnter now c.2 = true) ∧
      (channelHall config).PassesLast site k now
  | .invited _ _ _ _ => True

theorem joinChannel_absent {hash : AccessHash}
    (checked : Roster.JoinChannel.check env s userId hash = .ok ()) : s.present userId = false := by
  obtain ⟨-, checked⟩ := check_bind_eq_ok.mp checked
  obtain ⟨left, -⟩ := check_bind_eq_ok.mp checked
  have gone := require_eq_ok.mp left
  rw [Roster.present]
  cases found : s.participants.get userId with
  | none => rfl
  | some p =>
    rw [found] at gone
    simpa using gone

theorem importChatInvite_spec {hash : Roster.InviteHash} {invite : ChatInvite}
    (checked : Roster.ImportChatInvite.check env s userId hash = .ok invite) :
    s.invites.get invite.id = some invite ∧ invite.revoked = false ∧
      s.present userId = false := by
  obtain ⟨-, checked⟩ := check_bind_eq_ok.mp checked
  obtain ⟨found, row, checked⟩ := orRaise_bind_eq_ok.mp checked
  obtain ⟨-, checked⟩ := check_bind_eq_ok.mp checked
  obtain ⟨-, checked⟩ := check_bind_eq_ok.mp checked
  obtain ⟨-, checked⟩ := check_bind_eq_ok.mp checked
  obtain ⟨absent, done⟩ := check_bind_eq_ok.mp checked
  cases done
  obtain ⟨row, usable⟩ := Option.filter_eq_some_iff.mp row
  refine ⟨?_, ?_, by simpa using require_eq_ok.mp absent⟩
  · unfold Roster.inviteFromLinkHash at row
    split at row
    · cases row
    · cases row
    · obtain ⟨row, -⟩ := Option.filter_eq_some_iff.mp row
      rw [(Table.get_eq_some_iff.mp row).2]
      exact row
  · exact (Bool.not_eq_true' _).mp usable

theorem invitees_room {users added result : List UserId}
    (start : added ≠ [] → s.presentCount + added.length ≤ config.superGroupMemberLimit)
    (invited : s.invitees config env userId users added = .ok result) :
    result ≠ [] → s.presentCount + result.length ≤ config.superGroupMemberLimit := by
  induction users generalizing added with
  | nil =>
    cases invited
    exact start
  | cons u rest ih =>
    unfold Roster.invitees at invited
    split at invited
    · exact ih start invited
    · split at invited
      · cases invited
      · next free =>
          refine ih (fun _ => ?_) invited
          rw [List.length_append, List.length_singleton]
          omega

theorem inviteToChannel_room {hash : AccessHash} {users : List InputUser} {added : List UserId}
    (checked : Roster.InviteToChannel.check config env s userId hash users = .ok added) :
    added ≠ [] → s.presentCount + added.length ≤ config.superGroupMemberLimit := by
  obtain ⟨-, checked⟩ := check_bind_eq_ok.mp checked
  obtain ⟨participant, -, checked⟩ := (bind_eq_ok _).mp checked
  obtain ⟨-, checked⟩ := check_bind_eq_ok.mp checked
  obtain ⟨userIds, -, checked⟩ := (bind_eq_ok _).mp checked
  obtain ⟨-, checked⟩ := check_bind_eq_ok.mp checked
  exact invitees_room (fun some_ => (some_ rfl).elim) checked

theorem join_fresh {site : ChannelSite} {fromInvite : Option ChatInvite}
    {now : Int} (limits : (channelHall config).Limits site)
    (absent : site.state.present userId = false)
    (open_ : site.state.mayEnter now (Roster.joinDoor fromInvite) = true ↔
      (fromInvite = none → site.state.channel.joinRequest = false) ∧
        ∀ invite ∈ fromInvite, ∀ expiresAt ∈ invite.expiresAt, now ≤ expiresAt) :
    (channelHall config).Admits site (.join userId fromInvite env) now ↔
      Roster.Ticket.Spared config site (.join userId fromInvite env) now := by
  have comers : (channelHall config).comers site.state (.join userId fromInvite env) =
      [(userId, Roster.joinDoor fromInvite)] :=
    if_neg (by rw [absent]; exact Bool.false_ne_true)
  rw [Hall.admits_single limits comers, Roster.Ticket.Spared]
  refine and_congr_right fun _ => ?_
  rw [← and_assoc]
  exact and_congr_left' open_

theorem approved_fresh {site : ChannelSite}
    {requests : List ChatInviteRequest} {now : Int}
    (room : site.state.participants.rows.length + requests.length ≤ config.superGroupMemberLimit) :
    (channelHall config).Admits site (.approved requests) now ↔
      Roster.Ticket.Spared config site (.approved requests) now := by
  constructor
  · intro admits
    exact ⟨admits.doors, admits.passes⟩
  · rintro ⟨doors, last⟩
    refine ⟨fun _ => ?_, doors, last⟩
    have bound : ((channelHall config).comers site.state (.approved requests)).length ≤
        (requests.map ChatInviteRequest.userId).length :=
      Hall.length_comers_le fun c comes => by
        obtain ⟨u, listed, rfl⟩ := List.mem_map.mp comes
        exact List.mem_dedup.mp (List.mem_filter.mp listed).1
    rw [List.length_map] at bound
    have rows : site.state.presentCount ≤ site.state.participants.rows.length :=
      List.length_filter_le _ _
    have card := card_presentUsers_le site.state
    show site.state.presentUsers.card + _ ≤ config.superGroupMemberLimit
    omega

theorem invited_fresh {site : ChannelSite} {added : List UserId}
    {now : Int} (room : added ≠ [] →
      site.state.presentCount + added.length ≤ config.superGroupMemberLimit) :
    (channelHall config).Admits site (.invited userId
      (added.filter fun u => (site.state.participants.get u).isSome)
      (added.filter fun u => (site.state.participants.get u).isNone) env) now := by
  refine ⟨fun some_ => ?_, fun c comes => ?_, ?_⟩
  · have bound : ((channelHall config).comers site.state (.invited userId
        (added.filter fun u => (site.state.participants.get u).isSome)
        (added.filter fun u => (site.state.participants.get u).isNone) env)).length ≤
          added.length := Hall.length_comers_le fun c comes => by
      obtain ⟨u, listed, rfl⟩ := List.mem_map.mp comes
      rcases List.mem_append.mp (List.mem_dedup.mp listed) with known | fresh
      · exact (List.mem_filter.mp (List.mem_filter.mp known).1).1
      · exact (List.mem_filter.mp (List.mem_filter.mp fresh).1).1
    have added_ : added ≠ [] := by
      intro nobody
      subst nobody
      exact some_ rfl
    have room := room added_
    have card := card_presentUsers_le site.state
    show site.state.presentUsers.card + _ ≤ config.superGroupMemberLimit
    omega
  · obtain ⟨u, -, rfl⟩ := List.mem_map.mp comes
    rfl
  · refine Hall.passesLast_of_passless fun c comes => ?_
    obtain ⟨u, -, rfl⟩ := List.mem_map.mp comes
    rfl

theorem admits_iff {site : ChannelSite} {call : Roster.Call} {k : Roster.Ticket} (at_ : Int)
    (limits : (channelHall config).Limits site) (checked : call.check config site.state = some k) :
    (channelHall config).Admits site k at_ ↔ k.Spared config site at_ := by
  cases call with
  | joinChannel userId hash env =>
    simp only [Roster.Call.check] at checked
    split at checked
    · next passed _ =>
        cases checked
        refine join_fresh limits (joinChannel_absent passed) ?_
        simp [Roster.mayEnter, Roster.joinDoor]
    · cases checked
  | importChatInvite userId hash env =>
    simp only [Roster.Call.check] at checked
    split at checked
    · next invite passed _ =>
        split at checked
        · cases checked
        · next direct =>
            cases checked
            obtain ⟨row, kept, absent⟩ := importChatInvite_spec passed
            obtain ⟨unasked, free⟩ := Bool.or_eq_false_iff.mp (Bool.not_eq_true _ ▸ direct)
            refine join_fresh limits absent ?_
            rw [Roster.joinDoor, Roster.mayEnter, row, Option.any_some, unasked, free,
              ChatInvite.valid, kept]
            simp [Option.all_eq_true]
    · cases checked
  | hideChatJoinRequest userId hash requester now =>
    simp only [Roster.Call.check] at checked
    split at checked
    · cases checked
    · split at checked
      · cases checked
      · next room =>
          cases checked
          obtain ⟨room, -⟩ := check_bind_eq_ok.mp room
          exact approved_fresh (of_decide_eq_true (require_eq_ok.mp room))
  | hideAllChatJoinRequests userId hash link now =>
    simp only [Roster.Call.check] at checked
    split at checked
    · cases checked
    · split at checked
      · cases checked
      · next room =>
          obtain ⟨-, fetched⟩ := check_bind_eq_ok.mp room
          cases require_eq_ok.mp fetched
  | inviteToChannel userId hash users env =>
    simp only [Roster.Call.check] at checked
    split at checked
    · cases checked
    · next added passed =>
        cases checked
        exact iff_of_true (invited_fresh (inviteToChannel_room passed)) trivial

end Fresh

section Claims

/-- In every run in which each commit finds its checks as they came out, and is spared what they
leave open, the limits of groups and channels hold, however the calls are interleaved; a commit that
finds its checks so keeps the limits exactly when it is spared that. -/
theorem entrance_limits_along (config : AppConfig) :
    (∀ chatId, (∀ site es, (Chats.groupHall chatId).Limits site →
      StepsMeet (Chats.groupHall chatId).step ((Chats.groupHall chatId).Stands
        fun site k now => k.Spared chatId site now) site es →
        HoldsAlong (Chats.groupHall chatId).step (Chats.groupHall chatId).Limits site es) ∧
      ∀ site (call : Chats.GroupDb.Call) k now rest, (Chats.groupHall chatId).Limits site →
        call.check chatId site.state = some k →
          ((Chats.groupHall chatId).Limits ⟨k.commit chatId site.state, rest,
            site.entered ++ (Chats.groupHall chatId).entries site.state k now⟩ ↔
              k.Spared chatId site now)) ∧
    (∀ site es, (channelHall config).Limits site →
      StepsMeet (channelHall config).step ((channelHall config).Stands
        fun site k now => k.Spared config site now) site es →
        HoldsAlong (channelHall config).step (channelHall config).Limits site es) ∧
    ∀ site (call : Roster.Call) k now rest, (channelHall config).Limits site →
      call.check config site.state = some k →
        ((channelHall config).Limits ⟨k.commit site.state, rest,
          site.entered ++ (channelHall config).entries site.state k now⟩ ↔
            k.Spared config site now) := by
  refine ⟨fun chatId => ⟨fun site es => ?_, ?_⟩, fun site es => ?_, ?_⟩
  · exact fun start meets => Hall.limitsAlong
      (fun now limits checked => (Chats.admits_iff now limits checked).mpr) start meets
  · intro site call k now rest limits checked
    exact (Hall.limits_commit limits k now rest).trans (Chats.admits_iff now limits checked)
  · exact fun start meets => Hall.limitsAlong
      (fun now limits checked => (admits_iff now limits checked).mpr) start meets
  · intro site call k now rest limits checked
    exact (Hall.limits_commit limits k now rest).trans (admits_iff now limits checked)

/-- A channel with an invite that one user may use. -/
def limitedChannel : ChannelSite :=
  ⟨((Roster.createChannel 1 1 false true).exportChatInvite 1 .valid
    ⟨false, false, none, some 1, "n"⟩).left, [], []⟩

/-- Two users import the invite, one after the other. -/
def twoImports : List (Event Roster.Call Roster.Change Int) :=
  [.begin (.importChatInvite 2 (.names 1 "n") openSurroundings), .finish 0 0,
    .begin (.importChatInvite 3 (.names 1 "n") openSurroundings), .finish 0 0]

/-- The uses of an invite are not counted. -/
theorem limited_invite_used_twice : ¬ HoldsAlong (channelHall ⟨500, 100, 10⟩).step
    (channelHall ⟨500, 100, 10⟩).Limits limitedChannel twoImports := by
  intro along
  have last := along twoImports _ (List.prefix_refl _) rfl
  have used := last.used 1 1 rfl
  revert used
  decide

end Claims

end Piltover.Members
