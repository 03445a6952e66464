/- source: piltover/app/handlers/messages/chats.py, piltover/app/handlers/messages/invites.py,
     piltover/db/models/chat_invite.py
   digest: Joining a basic group in two halves, the checks and the writes, and what they let in. -/

import Piltover.Chats.Rolls
import Piltover.Foundation.Admission

set_option autoImplicit false

namespace Piltover.Chats

open Piltover.Channels (ChatParticipant)
open Piltover.Foundation
open Piltover.Foundation.Admission

/-- How somebody comes in: by the username, by the link of an invite, by a request that was made
with an invite and is approved, or brought by a member. -/
inductive Door
  | username
  | link (inviteId : Nat)
  | approval (inviteId : Nat)
  | brought
  deriving DecidableEq, Repr

def Door.invite : Door → Option Nat
  | .link inviteId | .approval inviteId => some inviteId
  | .username | .brought => none

/-- The invite can be used at the time. -/
def ChatInvite.valid (invite : ChatInvite) (now : Int) : Bool :=
  !invite.revoked && invite.expiresAt.all fun expires => decide (now ≤ expires)

namespace GroupDb

/-- The calls that let users into a group. -/
inductive Call
  | importChatInvite (userId inviteId : Nat) (now : Int)
  | hideJoinRequest (userId : Nat) (request : HideJoinRequest)
  | addChatUser (userId : Nat) (request : AddChatUser)

/-- What is left to write once a call has passed its checks. -/
inductive Ticket
  | join (userId : Nat) (invite : ChatInvite)
  | approved (requests : List ChatInviteRequest)
  | add (targetId : Nat)

/-- What other requests do to the rows that the calls read. -/
inductive Change
  | leaves (userId : Nat)
  | revokes (inviteId : Nat)
  | asks (userId inviteId : Nat)
  | dismisses (userId : Nat)

variable (chatId : Nat) (db : GroupDb)

/-- The checks of a call that is about the chat, up to its first write. -/
def Call.check : Call → Option Ticket
  | .importChatInvite userId inviteId now =>
    match ImportChatInvite.check db userId inviteId now with
    | .error _ => none
    | .ok invite =>
      if invite.chatId = chatId ∧ invite.requestNeeded = false ∧ db.isFull chatId = false then
        some (.join userId invite)
      else none
  | .hideJoinRequest userId request =>
    match HideJoinRequest.check db request userId with
    | .error _ => none
    | .ok found =>
      -- Requests without their users are not approved.
      if request.chatId = chatId ∧ request.approved = true ∧
          db.isFullFor chatId found.length = false ∧ request.requester.fetches = true then
        some (.approved found)
      else none
  | .addChatUser userId request =>
    match AddChatUser.check db request userId with
    | .error _ => none
    | .ok targetId => if request.chatId = chatId then some (.add targetId) else none

/-- The rows of an added user, unless `ChatParticipant.create` raises. -/
def Ticket.commit : Ticket → GroupDb
  | .join userId _ => UserJoin.commit db userId chatId
  | .approved requests => AddRequested.commit db chatId (requests.map ChatInviteRequest.userId)
  | .add targetId =>
    if targetId ∈ db.memberIds chatId then db else AddChatUser.commit db chatId targetId

def Change.apply : Change → GroupDb
  | .leaves userId => DeleteChatUser.commit db chatId userId
  | .revokes inviteId =>
    let invites := db.invites.modify (fun invite => invite.id == inviteId)
      (fun invite => { invite with revoked := true }) fun _ => rfl
    { db with invites := invites }
  | .asks userId inviteId =>
    let request : ChatInviteRequest := ⟨userId, inviteId⟩
    { db with inviteRequests := db.inviteRequests ++ [request] }
  | .dismisses userId => db.deleteRequests chatId [userId]

def present : Finset Nat :=
  (((db.participantsOf chatId).filter fun p => !p.left).map ChatParticipant.userId).toFinset

/-- Whom the writes let in: users who are not there, and without a row when they are added. -/
def Ticket.comers : Ticket → List (Nat × Door)
  | .join userId invite => if userId ∈ db.present chatId then [] else [(userId, .link invite.id)]
  | .approved requests =>
    (((requests.map ChatInviteRequest.userId).dedup).filter (· ∉ db.memberIds chatId)).map
      fun userId => (userId, .approval
        (((requests.find? fun request => request.userId == userId).map
          ChatInviteRequest.inviteId).getD 0))
  | .add targetId => if targetId ∈ db.memberIds chatId then [] else [(targetId, .brought)]

def mayEnter (now : Int) : Door → Bool
  | .username | .brought => true
  | .link inviteId =>
    (db.invites.get inviteId).any fun invite => invite.valid now && !invite.requestNeeded
  | .approval inviteId => (db.invites.get inviteId).any fun invite => invite.valid now

end GroupDb

section Rows

variable {db : GroupDb} {chatId u : Nat}

theorem mem_present : u ∈ db.present chatId ↔
    ∃ p ∈ db.participantsOf chatId, p.userId = u ∧ p.left = false := by
  simp only [GroupDb.present, List.mem_toFinset, List.mem_map, List.mem_filter, Bool.not_eq_true']
  constructor
  · rintro ⟨p, ⟨row, here⟩, named⟩
    exact ⟨p, row, named, here⟩
  · rintro ⟨p, row, named, here⟩
    exact ⟨p, ⟨row, here⟩, named⟩

theorem member_of_present (here : u ∈ db.present chatId) : u ∈ db.memberIds chatId := by
  obtain ⟨p, row, named, -⟩ := mem_present.mp here
  exact List.mem_map.mpr ⟨p, row, named⟩

theorem present_congr {after : GroupDb} (same : after.participants = db.participants) :
    after.present chatId = db.present chatId := by
  rw [GroupDb.present, GroupDb.participantsOf, same]
  rfl

theorem participants_createPeer (ownerId : Nat) :
    (db.createPeer ownerId chatId).participants = db.participants := by
  unfold GroupDb.createPeer
  split <;> rfl

theorem participantsOf_createParticipant {p : ChatParticipant} :
    (db.createParticipant chatId p).participantsOf chatId =
      if p.userId ∈ db.memberIds chatId then db.participantsOf chatId
      else db.participantsOf chatId ++ [p] := by
  unfold GroupDb.createParticipant
  split
  · rfl
  · simp [GroupDb.participantsOf]

theorem mem_present_enroll {p : ChatParticipant} (here : p.left = false) :
    u ∈ (db.enroll chatId p).present chatId ↔
      u ∈ db.present chatId ∨ u = p.userId ∧ p.userId ∉ db.memberIds chatId := by
  have rows : (db.enroll chatId p).participantsOf chatId =
      if p.userId ∈ db.memberIds chatId then db.participantsOf chatId
      else db.participantsOf chatId ++ [p] := by
    rw [GroupDb.enroll, participantsOf_createParticipant, memberIds_createPeer,
      GroupDb.participantsOf, participants_createPeer, ← GroupDb.participantsOf]
  rw [mem_present, rows]
  by_cases member : p.userId ∈ db.memberIds chatId
  · rw [if_pos member, ← mem_present]
    exact ⟨.inl, fun either => either.resolve_right fun new => new.2 member⟩
  · rw [if_neg member, mem_present]
    constructor
    · rintro ⟨q, row, named, stays⟩
      rcases List.mem_append.mp row with old | new
      · exact .inl ⟨q, old, named, stays⟩
      · rw [List.mem_singleton.mp new] at named
        exact .inr ⟨named.symm, member⟩
    · rintro (⟨q, row, named, stays⟩ | ⟨named, -⟩)
      · exact ⟨q, List.mem_append_left _ row, named, stays⟩
      · exact ⟨p, List.mem_append_right _ (List.mem_singleton_self p), named.symm, here⟩

theorem mem_present_enrollAll {ps : List ChatParticipant} (here : ∀ p ∈ ps, p.left = false) :
    u ∈ (ps.foldl (GroupDb.enroll chatId) db).present chatId ↔
      u ∈ db.present chatId ∨
        u ∈ ps.map ChatParticipant.userId ∧ u ∉ db.memberIds chatId := by
  induction ps generalizing db with
  | nil => simp
  | cons p ps ih =>
    rw [List.foldl_cons, ih fun q listed => here q (List.mem_cons_of_mem p listed),
      mem_present_enroll (here p List.mem_cons_self), memberIds_enroll, List.map_cons,
      List.mem_cons]
    by_cases member : p.userId ∈ db.memberIds chatId
    · rw [if_neg fun both => both.2 member]
      constructor
      · rintro ((old | ⟨-, new⟩) | ⟨listed, new⟩)
        · exact .inl old
        · exact absurd member new
        · exact .inr ⟨.inr listed, new⟩
      · rintro (old | ⟨rfl | listed, new⟩)
        · exact .inl (.inl old)
        · exact absurd member new
        · exact .inr ⟨listed, new⟩
    · rw [if_pos ⟨rfl, member⟩, List.mem_append, List.mem_singleton]
      constructor
      · rintro ((old | ⟨rfl, -⟩) | ⟨listed, new⟩)
        · exact .inl old
        · exact .inr ⟨.inl rfl, member⟩
        · exact .inr ⟨.inr listed, fun known => new (.inl known)⟩
      · rintro (old | ⟨rfl | listed, new⟩)
        · exact .inl (.inl old)
        · exact .inl (.inr ⟨rfl, member⟩)
        · by_cases same : u = p.userId
          · exact .inl (.inr ⟨same, member⟩)
          · exact .inr ⟨listed, fun known => known.elim new same⟩

theorem mem_present_userJoin {userId : Nat} :
    u ∈ (GroupDb.UserJoin.commit db userId chatId).present chatId ↔
      u ∈ db.present chatId ∨ u = userId := by
  have same : (db.createPeer userId chatId).memberIds chatId = db.memberIds chatId :=
    memberIds_createPeer
  by_cases member : userId ∈ db.memberIds chatId
  · have rows : (GroupDb.UserJoin.commit db userId chatId).participantsOf chatId =
        (db.participantsOf chatId).map fun p =>
          if p.userId = userId then { p with left := false } else p := by
      unfold GroupDb.UserJoin.commit
      dsimp only
      rw [same, if_pos member]
      simp only [GroupDb.deleteRequests, GroupDb.participantsOf, participants_createPeer,
        List.filter_map, List.map_map]
      have kept : ((fun p : Nat × ChatParticipant => p.1 == chatId) ∘ fun p =>
          if p.1 = chatId ∧ p.2.userId = userId then (p.1, { p.2 with left := false }) else p) =
          fun p => p.1 == chatId := by
        ext p
        simp only [Function.comp]
        split
        · rfl
        · rfl
      rw [kept]
      refine List.map_congr_left fun p listed => ?_
      have here : p.1 = chatId := beq_iff_eq.mp (List.mem_filter.mp listed).2
      simp only [Function.comp, here, true_and]
      split
      · rfl
      · rfl
    rw [mem_present, rows, mem_present]
    constructor
    · rintro ⟨q, row, named, stays⟩
      obtain ⟨p, old, rfl⟩ := List.mem_map.mp row
      by_cases mine : p.userId = userId
      · rw [if_pos mine] at named
        exact .inr (named.symm.trans mine)
      · rw [if_neg mine] at named stays
        exact .inl ⟨p, old, named, stays⟩
    · rintro (⟨p, row, named, stays⟩ | rfl)
      · refine ⟨_, List.mem_map_of_mem row, ?_⟩
        split
        · exact ⟨named, rfl⟩
        · exact ⟨named, stays⟩
      · obtain ⟨p, row, named⟩ := List.mem_map.mp member
        refine ⟨_, List.mem_map_of_mem row, ?_⟩
        rw [if_pos named]
        exact ⟨named, rfl⟩
  · have new : (GroupDb.UserJoin.commit db userId chatId).present chatId =
        (db.enroll chatId ⟨userId, 0, 0, false⟩).present chatId := by
      unfold GroupDb.UserJoin.commit
      dsimp only
      rw [same, if_neg member]
      exact present_congr rfl
    rw [new, mem_present_enroll rfl]
    simp [member]

theorem mem_present_delete {targetId : Nat}
    (here : u ∈ (GroupDb.DeleteChatUser.commit db chatId targetId).present chatId) :
    u ∈ db.present chatId := by
  obtain ⟨p, row, rest⟩ := mem_present.mp here
  refine mem_present.mpr ⟨p, ?_, rest⟩
  simp only [GroupDb.DeleteChatUser.commit, GroupDb.addCount, GroupDb.participantsOf,
    List.mem_map, List.mem_filter] at row
  obtain ⟨⟨chat, q⟩, ⟨⟨listed, -⟩, mine⟩, rfl⟩ := row
  exact List.mem_map.mpr ⟨(chat, q), List.mem_filter.mpr ⟨listed, mine⟩, rfl⟩

end Rows

section Halls

variable (db : GroupDb) (chatId : Nat)

theorem present_commit (k : GroupDb.Ticket) : (k.commit chatId db).present chatId =
    db.present chatId ∪ ((k.comers chatId db).map Prod.fst).toFinset := by
  ext u
  rw [Finset.mem_union, List.mem_toFinset]
  cases k with
  | join userId invite =>
    refine mem_present_userJoin.trans ?_
    by_cases here : userId ∈ db.present chatId
    · simp only [GroupDb.Ticket.comers, if_pos here, List.map_nil, List.not_mem_nil, or_false]
      exact ⟨fun either => either.elim id fun same => same ▸ here, .inl⟩
    · simp [GroupDb.Ticket.comers, here]
  | approved requests =>
    have plain : ∀ p ∈ (requests.map ChatInviteRequest.userId).map fun id =>
        (⟨id, 0, 0, false⟩ : ChatParticipant), p.left = false := by
      intro p listed
      obtain ⟨id, -, rfl⟩ := List.mem_map.mp listed
      rfl
    refine (mem_present_enrollAll plain).trans ?_
    simp [GroupDb.Ticket.comers]
  | add targetId =>
    by_cases member : targetId ∈ db.memberIds chatId
    · simp [GroupDb.Ticket.commit, GroupDb.Ticket.comers, member]
    · simp only [GroupDb.Ticket.commit, GroupDb.Ticket.comers, if_neg member]
      have same : (GroupDb.AddChatUser.commit db chatId targetId).present chatId =
          (db.enroll chatId ⟨targetId, 0, 0, false⟩).present chatId := present_congr rfl
      rw [same, mem_present_enroll rfl]
      simp [member]

theorem comers_absent (k : GroupDb.Ticket) (c : Nat × Door) (comes : c ∈ k.comers chatId db) :
    c.1 ∉ db.present chatId := by
  cases k with
  | join userId invite =>
    simp only [GroupDb.Ticket.comers] at comes
    split at comes
    · cases comes
    · next absent =>
        rw [List.mem_singleton.mp comes]
        exact absent
  | approved requests =>
    obtain ⟨u, listed, rfl⟩ := List.mem_map.mp comes
    intro here
    exact of_decide_eq_true (List.mem_filter.mp listed).2 (member_of_present here)
  | add targetId =>
    simp only [GroupDb.Ticket.comers] at comes
    split at comes
    · cases comes
    · next unknown =>
        rw [List.mem_singleton.mp comes]
        exact fun here => unknown (member_of_present here)

theorem comers_nodup (k : GroupDb.Ticket) : ((k.comers chatId db).map Prod.fst).Nodup := by
  cases k with
  | join userId invite =>
    simp only [GroupDb.Ticket.comers]
    split
    · exact List.nodup_nil
    · exact List.nodup_singleton _
  | approved requests =>
    rw [GroupDb.Ticket.comers, List.map_map]
    have same : (Prod.fst ∘ fun userId : Nat => (userId, Door.approval
        (((requests.find? fun request => request.userId == userId).map
          ChatInviteRequest.inviteId).getD 0))) = id := rfl
    rw [same, List.map_id]
    exact (List.nodup_dedup _).filter _
  | add targetId =>
    simp only [GroupDb.Ticket.comers]
    split
    · exact List.nodup_nil
    · exact List.nodup_singleton _

theorem enrollAll_terms (ps : List ChatParticipant) :
    (ps.foldl (GroupDb.enroll chatId) db).invites = db.invites ∧
      (ps.foldl (GroupDb.enroll chatId) db).basicGroupMemberLimit = db.basicGroupMemberLimit := by
  induction ps generalizing db with
  | nil => exact ⟨rfl, rfl⟩
  | cons p ps ih =>
    have one : (db.enroll chatId p).invites = db.invites ∧
        (db.enroll chatId p).basicGroupMemberLimit = db.basicGroupMemberLimit := by
      unfold GroupDb.enroll GroupDb.createParticipant GroupDb.createPeer
      split <;> split <;> exact ⟨rfl, rfl⟩
    rw [List.foldl_cons]
    exact ⟨(ih (db.enroll chatId p)).1.trans one.1, (ih (db.enroll chatId p)).2.trans one.2⟩

theorem commit_terms (k : GroupDb.Ticket) : (k.commit chatId db).invites = db.invites ∧
    (k.commit chatId db).basicGroupMemberLimit = db.basicGroupMemberLimit := by
  cases k with
  | join userId invite =>
    simp only [GroupDb.Ticket.commit]
    unfold GroupDb.UserJoin.commit GroupDb.createParticipant GroupDb.createPeer
    dsimp only
    split <;> split <;> exact ⟨rfl, rfl⟩
  | approved requests => exact enrollAll_terms db chatId _
  | add targetId =>
    simp only [GroupDb.Ticket.commit]
    split
    · exact ⟨rfl, rfl⟩
    · exact enrollAll_terms db chatId [⟨targetId, 0, 0, false⟩]

theorem change_present (c : GroupDb.Change) : (c.apply chatId db).present chatId ⊆
    db.present chatId := by
  cases c with
  | leaves userId => exact fun u here => mem_present_delete here
  | revokes inviteId => exact Finset.Subset.refl _
  | asks userId inviteId => exact Finset.Subset.refl _
  | dismisses userId => exact Finset.Subset.refl _

def GroupDb.quota (db : GroupDb) (inviteId : Nat) : Option Int :=
  (db.invites.get inviteId).bind fun invite => invite.usageLimit.map Int.ofNat

theorem change_quota (c : GroupDb.Change) (inviteId : Nat) :
    (c.apply chatId db).quota inviteId = db.quota inviteId := by
  cases c with
  | leaves userId => rfl
  | revokes revoked =>
    unfold GroupDb.quota GroupDb.Change.apply
    dsimp only
    rw [Table.get_modify, Option.bind_map]
    refine congrArg (Option.bind _) ?_
    ext invite
    simp only [Function.comp]
    split
    · rfl
    · rfl
  | asks userId inviteId => rfl
  | dismisses userId => rfl

/-- A group, and how users come into it. -/
def groupHall (chatId : Nat) :
    Hall GroupDb GroupDb.Call GroupDb.Ticket GroupDb.Change Nat Door Nat Int where
  check db call := call.check chatId db
  commit db k := k.commit chatId db
  change db c := c.apply chatId db
  present db := db.present chatId
  capacity := GroupDb.basicGroupMemberLimit
  quota := GroupDb.quota
  pass := Door.invite
  mayEnter := GroupDb.mayEnter
  comers db k := k.comers chatId db
  commit_present db k := present_commit db chatId k
  comers_absent db k := comers_absent db chatId k
  comers_nodup db k := comers_nodup db chatId k
  commit_capacity db k := (commit_terms db chatId k).2
  commit_quota db k i := by rw [GroupDb.quota, (commit_terms db chatId k).1, ← GroupDb.quota]
  change_present db c := change_present db chatId c
  change_capacity db c := by cases c <;> rfl
  change_quota db c := change_quota db chatId c

end Halls

section Fresh

variable {chatId : Nat} {db : GroupDb}

abbrev GroupSite := Site GroupDb GroupDb.Call GroupDb.Ticket Nat Door

/-- What the checks of a call leave open: that the limit is not just reached when one more joins or
is added, that the invite does not expire before the commit, that approved requests come with
invites that can still be used, and how often the invites were used. -/
def GroupDb.Ticket.Spared (chatId : Nat) (site : GroupSite) (k : GroupDb.Ticket) (now : Int) :
    Prop :=
  match k with
  | .join _ invite =>
    (site.state.present chatId).card ≠ site.state.basicGroupMemberLimit ∧
      (∀ expires ∈ invite.expiresAt, now ≤ expires) ∧ (groupHall chatId).PassesLast site k now
  | .approved _ =>
    (∀ c ∈ k.comers chatId site.state, site.state.mayEnter now c.2 = true) ∧
      (groupHall chatId).PassesLast site k now
  | .add targetId => targetId ∉ site.state.memberIds chatId →
      (site.state.present chatId).card ≠ site.state.basicGroupMemberLimit

theorem card_present_le (db : GroupDb) (chatId : Nat) : (db.present chatId).card ≤
    ((db.participantsOf chatId).filter fun p => !p.left).length := by
  refine (List.toFinset_card_le _).trans ?_
  rw [List.length_map]

theorem importChatInvite_spec (chatId : Nat) {userId inviteId : Nat} {now : Int} {invite : ChatInvite}
    (checked : GroupDb.ImportChatInvite.check db userId inviteId now = .ok invite) :
    db.invites.get invite.id = some invite ∧ invite.revoked = false ∧
      (invite.chatId = chatId → userId ∉ db.present chatId) := by
  obtain ⟨found, row, checked⟩ := orRaise_bind_eq_ok.mp checked
  obtain ⟨-, checked⟩ := check_bind_eq_ok.mp checked
  obtain ⟨chat, -, checked⟩ := orRaise_bind_eq_ok.mp checked
  obtain ⟨-, checked⟩ := check_bind_eq_ok.mp checked
  obtain ⟨absent, done⟩ := check_bind_eq_ok.mp checked
  cases done
  obtain ⟨row, usable⟩ := Option.filter_eq_some_iff.mp row
  refine ⟨?_, ?_, ?_⟩
  · rw [(Table.get_eq_some_iff.mp row).2]
    exact row
  · exact (Bool.not_eq_true' _).mp usable
  · rintro rfl here
    obtain ⟨p, listed, named, stays⟩ := mem_present.mp here
    have none_ := require_eq_ok.mp absent
    rw [Bool.not_eq_true', List.any_eq_false] at none_
    exact none_ p listed (by simp [named, stays])

/-- When its checks still come out as they did, a commit lets in whom it may exactly when it is
spared what they leave open. -/
theorem admits_iff {site : GroupSite} {call : GroupDb.Call} {k : GroupDb.Ticket} (at_ : Int)
    (limits : (groupHall chatId).Limits site) (checked : call.check chatId site.state = some k) :
    (groupHall chatId).Admits site k at_ ↔ k.Spared chatId site at_ := by
  have crowd : (site.state.present chatId).card ≤ site.state.basicGroupMemberLimit := limits.crowd
  cases call with
  | importChatInvite userId inviteId now =>
    simp only [GroupDb.Call.check] at checked
    split at checked
    · cases checked
    · next invite passed =>
        split at checked
        · next allowed =>
            cases checked
            obtain ⟨here, direct, room⟩ := allowed
            obtain ⟨row, kept, outside⟩ := importChatInvite_spec chatId passed
            have absent := outside here
            have open_ : site.state.mayEnter at_ (.link invite.id) = true ↔
                ∀ expires ∈ invite.expiresAt, at_ ≤ expires := by
              rw [GroupDb.mayEnter, row, Option.any_some, direct, ChatInvite.valid, kept]
              simp [Option.all_eq_true]
            have comers : (groupHall chatId).comers site.state (.join userId invite) =
                [(userId, .link invite.id)] := if_neg absent
            exact (Hall.admits_single limits comers).trans (and_congr_right fun _ =>
              and_congr_left' open_)
        · cases checked
  | hideJoinRequest userId request =>
    simp only [GroupDb.Call.check] at checked
    split at checked
    · cases checked
    · next found passed =>
        split at checked
        · next allowed =>
            cases checked
            obtain ⟨-, -, room, -⟩ := allowed
            constructor
            · intro admits
              exact ⟨admits.doors, admits.passes⟩
            · rintro ⟨doors, last⟩
              refine ⟨fun _ => ?_, doors, last⟩
              have bound : ((groupHall chatId).comers site.state (.approved found)).length ≤
                  (found.map ChatInviteRequest.userId).length :=
                Hall.length_comers_le fun c comes => by
                  obtain ⟨u, listed, rfl⟩ := List.mem_map.mp comes
                  exact List.mem_dedup.mp (List.mem_filter.mp listed).1
              rw [List.length_map] at bound
              have rows : ((site.state.participantsOf chatId).filter fun p => !p.left).length ≤
                  (site.state.participantsOf chatId).length := List.length_filter_le _ _
              have free : ¬ site.state.basicGroupMemberLimit <
                  (site.state.participantsOf chatId).length + found.length :=
                of_decide_eq_false room
              have card := card_present_le site.state chatId
              show (site.state.present chatId).card + _ ≤ site.state.basicGroupMemberLimit
              omega
        · cases checked
  | addChatUser userId request =>
    simp only [GroupDb.Call.check] at checked
    split at checked
    · cases checked
    · next targetId passed =>
        split at checked
        · cases checked
          by_cases member : targetId ∈ site.state.memberIds chatId
          · have comers : (groupHall chatId).comers site.state (.add targetId) = [] :=
              if_pos member
            exact iff_of_true (Hall.admits_nobody comers) fun new => absurd member new
          · have comers : (groupHall chatId).comers site.state (.add targetId) =
                [(targetId, .brought)] := if_neg member
            have last : (groupHall chatId).PassesLast site (.add targetId) at_ :=
              Hall.passesLast_of_passless fun c comes => by
                rw [comers] at comes
                obtain rfl := List.mem_singleton.mp comes
                rfl
            rw [Hall.admits_single limits comers]
            exact ⟨fun admits _ => admits.1, fun spared => ⟨spared member, rfl, last⟩⟩
        · cases checked

end Fresh

end Piltover.Chats
