/- source: piltover/app/handlers/channels.py, piltover/app/handlers/messages/invites.py,
     piltover/db/models/dialog.py
   digest: What the ways to join a channel leave of a user, and where approving differs. -/

import Piltover.Members.Roles

set_option autoImplicit false

namespace Piltover.Members

open Piltover.Channels (UserId AccessHash)
open Piltover.Channels.ChatBannedRights (viewMessages)
open Piltover.Foundation
open Piltover.Foundation.Runs

section Claims

/-- The ways to join: by the username, by an invite link, by one approved request or by all of
them, and by being invited. -/
inductive Way
  | username (hash : AccessHash)
  | link (hash : Roster.InviteHash)
  | approval (hash : AccessHash) (requester : Option UserId)
  | approvals (hash : AccessHash) (link : Option Roster.InviteHash)
  | invitation (hash : AccessHash) (users : List InputUser)

def Way.request : Way → Request
  | .username hash => .joinChannel hash
  | .link hash => .importChatInvite hash
  | .approval hash requester => .hideChatJoinRequest hash requester true
  | .approvals hash invite => .hideAllChatJoinRequests hash invite true
  | .invitation hash users => .inviteToChannel hash users

/-- Whom the request lets in when it is answered. -/
def Way.joiners (config : AppConfig) (env : Surroundings) (s : Roster) (userId : UserId) :
    Way → List UserId
  | .username _ | .link _ => [userId]
  | .approval _ requester => requester.toList
  | .approvals _ invite =>
    match s.requestsOf invite with
    | .error _ => []
    | .ok requests => requests.map ChatInviteRequest.userId
  | .invitation hash users =>
    match Roster.InviteToChannel.check config env s userId hash users with
    | .error _ => []
    | .ok added => added

def Roster.banned (s : Roster) (userId : UserId) : Bool :=
  (s.participants.get userId).any fun p => p.bannedRights &&& viewMessages != 0

structure Joined (env : Surroundings) (s t : Roster) (userId : UserId) : Prop where
  present : ∃ p, t.participants.get userId = some p ∧ p.left = false ∧
    p.minMessageId = s.minMessageIdForNewParticipant env
  dialog : ∃ d, t.dialogs.get userId = some d ∧ d.visible = true
  subscribed : userId ∈ t.subscribed
  requests : ∀ request ∈ t.requests, request.userId ≠ userId

/-- Whoever was neither present nor banned has joined, and nobody else becomes present. -/
structure Agrees (env : Surroundings) (s : Roster) (joiners : List UserId) (t : Roster) : Prop where
  joined : ∀ u ∈ joiners, s.present u = false → s.banned u = false → Joined env s t u
  exactly : ∀ u, t.present u = (s.present u || joiners.contains u)

/-- The request is refused with an error for the client, or the database that it leaves is as
joining is to leave it. -/
def Way.Agree (config : AppConfig) (env : Surroundings) (s : Roster) (userId : UserId)
    (way : Way) : Prop :=
  (Command.handle config s ⟨userId, way.request, env⟩).RefusedOr
    (Agrees env s (way.joiners config env s userId))

/-- The user is there already, or has no row, with nothing hidden from new participants, and with
a dialog that is made or visible. -/
def Roster.Fits (env : Surroundings) (s : Roster) (userId : UserId) : Prop :=
  match s.participants.get userId with
  | some p => p.left = false
  | none => s.minMessageIdForNewParticipant env = none ∧
      ((s.channel.supergroup && !s.channel.channel) = true ∨
        ∃ d, s.dialogs.get userId = some d ∧ d.visible = true)

/-- One request is approved for a user who fits, and all are approved only when there are too many
of them, or when everybody who asks is there already. -/
def Way.Fits (config : AppConfig) (env : Surroundings) (s : Roster) (userId : UserId) :
    Way → Prop
  | .username _ | .link _ | .invitation _ _ => True
  | .approval hash requester => ∀ request,
      Roster.HideChatJoinRequest.check s userId hash requester = .ok request →
        Roster.AddRequested.check config s [request] true = .ok () → s.Fits env request.userId
  | .approvals hash invite => ∀ requests,
      Roster.HideAllChatJoinRequests.check s userId hash invite = .ok requests →
        Roster.AddRequested.check config s requests true = .ok () →
          ∀ request ∈ requests, s.present request.userId = true

end Claims

section Rows

variable {env : Surroundings} {s t : Roster}

theorem present_of_get {userId : UserId} {p : ChatParticipant}
    (row : t.participants.get userId = some p) : t.present userId = !p.left := by
  rw [Roster.present, row, Option.any_some]

theorem present_of_none {userId : UserId} (row : t.participants.get userId = none) :
    t.present userId = false := by
  rw [Roster.present, row, Option.any_none]

theorem get_unhide (dialogs : Table Dialog.ownerId) (userIds : List UserId) (u : UserId) :
    (Roster.unhide dialogs userIds).get u =
      if u ∈ userIds then some ⟨u, true⟩ else dialogs.get u := by
  induction userIds generalizing dialogs with
  | nil => rfl
  | cons first rest ih =>
    rw [Roster.unhide, List.foldl_cons, ← Roster.unhide, ih, Table.get_updateOrCreate]
    by_cases later : u ∈ rest
    · rw [if_pos later, if_pos (List.mem_cons_of_mem first later)]
    · by_cases same : first = u
      · subst same
        rw [if_neg later, if_pos rfl, if_pos List.mem_cons_self]
        cases found : dialogs.get first with
        | none => rfl
        | some d =>
          have named := (Table.get_eq_some_iff.mp found).2
          cases d
          cases named
          rfl
      · have other : ¬ u ∈ first :: rest := by
          rw [List.mem_cons, not_or]
          exact ⟨fun eq => same eq.symm, later⟩
        rw [if_neg later, if_neg other, if_neg same]

theorem dialog_unhide {dialogs : Table Dialog.ownerId} {userIds : List UserId} {u : UserId}
    (listed : u ∈ userIds) :
    ∃ d, (Roster.unhide dialogs userIds).get u = some d ∧ d.visible = true :=
  ⟨⟨u, true⟩, (get_unhide dialogs userIds u).trans (if_pos listed), rfl⟩

theorem withoutRequests_spec {userIds : List UserId} {u : UserId} (listed : u ∈ userIds)
    (request : ChatInviteRequest) (kept : request ∈ s.withoutRequests userIds) :
    request.userId ≠ u := by
  intro same
  have stays := (List.mem_filter.mp kept).2
  rw [same, List.contains_iff_mem.mpr listed] at stays
  cases stays

end Rows

section Joining

variable {config : AppConfig} {env : Surroundings} {s : Roster}

theorem userJoin_agrees (env : Surroundings) (s : Roster) (userId : UserId)
    (fromInvite : Option ChatInvite) :
    Agrees env s [userId] (Roster.UserJoin.commit env s userId fromInvite) := by
  have got := get_userJoin env s userId fromInvite
  constructor
  · intro u listed _ _
    obtain rfl := List.mem_singleton.mp listed
    exact ⟨⟨_, (got u).trans (if_pos rfl), rfl, rfl⟩, dialog_unhide listed,
      List.mem_append_right _ listed, withoutRequests_spec listed⟩
  · intro u
    by_cases same : userId = u
    · subst same
      rw [present_of_get ((got userId).trans (if_pos rfl))]
      simp [ChatParticipant.joined]
    · rw [Roster.present, got u, if_neg same, ← Roster.present]
      have other : ([userId].contains u) = false := by
        simpa using fun eq : u = userId => same eq.symm
      rw [other, Bool.or_false]

theorem get_invite_none (env : Surroundings) (s : Roster) (userId : UserId) (added : List UserId)
    (u : UserId) (before : s.participants.get u = none) :
    (Roster.InviteToChannel.commit env s userId added).participants.get u =
      if u ∈ added then some { ChatParticipant.ofUser u with
        inviterId := userId, minMessageId := s.minMessageIdForNewParticipant env }
      else none := by
  have unknown : (s.participants.get u).isSome = false := by rw [before]; rfl
  rw [Roster.InviteToChannel.commit, Table.get_modify, Table.get_insertMany, before,
    Option.none_or, Table.find?_map_key fun _ => rfl]
  by_cases listed : u ∈ added
  · have fresh : u ∈ added.filter fun v => (s.participants.get v).isNone :=
      List.mem_filter.mpr ⟨listed, by rw [before]; rfl⟩
    rw [if_pos fresh, if_pos listed]
    simp [unknown, ChatParticipant.ofUser]
  · have missing : ¬ u ∈ added.filter fun v => (s.participants.get v).isNone :=
      fun fresh => listed (List.mem_filter.mp fresh).1
    rw [if_neg missing, if_neg listed]
    rfl

theorem invite_agrees (env : Surroundings) (s : Roster) (userId : UserId) (added : List UserId) :
    Agrees env s added (Roster.InviteToChannel.commit env s userId added) := by
  constructor
  · intro u listed _ _
    refine ⟨?_, dialog_unhide listed, List.mem_append_right _ listed, withoutRequests_spec listed⟩
    cases before : s.participants.get u with
    | none =>
      exact ⟨_, (get_invite_none env s userId added u before).trans (if_pos listed), rfl, rfl⟩
    | some p =>
      refine ⟨_, get_invite env s userId added u p before, ?_⟩
      rw [if_pos listed]
      exact ⟨rfl, rfl⟩
  · intro u
    cases before : s.participants.get u with
    | none =>
      rw [Roster.present, get_invite_none env s userId added u before, present_of_none before,
        Bool.false_or]
      by_cases listed : u ∈ added
      · simp [listed, ChatParticipant.ofUser]
      · simp [listed]
    | some p =>
      rw [present_of_get (get_invite env s userId added u p before), present_of_get before]
      by_cases listed : u ∈ added
      · simp [listed]
      · simp [listed]

end Joining

section Approving

variable {config : AppConfig} {env : Surroundings} {s : Roster} {requests : List ChatInviteRequest}

/-- Approving makes rows for those who have none, and changes no other row. -/
theorem get_addRequested_some {u : UserId} {p : ChatParticipant}
    (before : s.participants.get u = some p) :
    (Roster.AddRequested.commit s requests).participants.get u = some p := by
  rw [Roster.AddRequested.commit, Table.get_insertMany, before, Option.some_or]

theorem get_addRequested_none (requests : List ChatInviteRequest) {u : UserId}
    (before : s.participants.get u = none) :
    ((Roster.AddRequested.commit s requests).participants.get u).isSome =
        (requests.map ChatInviteRequest.userId).contains u ∧
      ∀ p, (Roster.AddRequested.commit s requests).participants.get u = some p →
        p.left = false ∧ p.minMessageId = none := by
  rw [Roster.AddRequested.commit, Table.get_insertMany, before, Option.none_or]
  constructor
  · rw [Bool.eq_iff_iff, List.find?_isSome]
    simp [ChatParticipant.ofUser]
  · intro p found
    obtain ⟨request, -, rfl⟩ := List.mem_map.mp (List.mem_of_find?_eq_some found)
    exact ⟨rfl, rfl⟩

theorem addRequested_agrees :
    Agrees env s (requests.map ChatInviteRequest.userId) (Roster.AddRequested.commit s requests) ↔
      ∀ request ∈ requests, s.Fits env request.userId := by
  constructor
  · intro agrees request listed
    have asked : request.userId ∈ requests.map ChatInviteRequest.userId :=
      List.mem_map_of_mem listed
    have now := agrees.exactly request.userId
    rw [List.contains_iff_mem.mpr asked, Bool.or_true] at now
    unfold Roster.Fits
    cases before : s.participants.get request.userId with
    | some p =>
      rw [present_of_get (get_addRequested_some before)] at now
      simpa using now
    | none =>
      have unbanned : s.banned request.userId = false := by
        rw [Roster.banned, before, Option.any_none]
      have joined := agrees.joined request.userId asked (present_of_none before) unbanned
      obtain ⟨p, found, -, hidden⟩ := joined.present
      obtain ⟨-, plain⟩ := get_addRequested_none requests before
      refine ⟨hidden.symm.trans (plain p found).2, ?_⟩
      obtain ⟨d, dialog, visible⟩ := joined.dialog
      by_cases group : (s.channel.supergroup && !s.channel.channel) = true
      · exact .inl group
      · refine .inr ⟨d, ?_, visible⟩
        rw [← dialog]
        exact (congrArg (fun dialogs : Table Dialog.ownerId => dialogs.get request.userId)
          (if_neg group)).symm
  · intro fits
    constructor
    · intro u asked absent _
      obtain ⟨request, listed, rfl⟩ := List.mem_map.mp asked
      have fit := fits request listed
      unfold Roster.Fits at fit
      cases before : s.participants.get request.userId with
      | some p =>
        rw [before] at fit
        rw [present_of_get before, fit] at absent
        cases absent
      | none =>
        rw [before] at fit
        obtain ⟨some_, plain⟩ := get_addRequested_none requests before
        rw [List.contains_iff_mem.mpr asked] at some_
        obtain ⟨p, found⟩ := Option.isSome_iff_exists.mp some_
        obtain ⟨here, none_⟩ := plain p found
        refine ⟨⟨p, found, here, none_.trans fit.1.symm⟩, ?_, List.mem_append_right _ asked,
          withoutRequests_spec asked⟩
        dsimp only [Roster.AddRequested.commit]
        split
        · exact dialog_unhide asked
        · next broadcast => exact fit.2.resolve_left broadcast
    · intro u
      cases before : s.participants.get u with
      | some p =>
        rw [present_of_get (get_addRequested_some before), present_of_get before]
        cases asked : (requests.map ChatInviteRequest.userId).contains u with
        | false => rw [Bool.or_false]
        | true =>
          obtain ⟨request, listed, rfl⟩ := List.mem_map.mp (List.contains_iff_mem.mp asked)
          have fit := fits request listed
          rw [Roster.Fits, before] at fit
          rw [fit]
          rfl
      | none =>
        obtain ⟨some_, plain⟩ := get_addRequested_none requests before
        rw [present_of_none before, Bool.false_or, ← some_, Roster.present]
        cases found : (Roster.AddRequested.commit s requests).participants.get u with
        | none => rfl
        | some p => simp [(plain p found).1]

end Approving

section Ways

variable {config : AppConfig} {env : Surroundings} {s : Roster} {userId : UserId}

theorem settles_getFromInput (hash : AccessHash) (code : Nat) (message : String) :
    Settles (s.getFromInput userId hash (.rpc code message)) :=
  settles_require _ _ _

theorem settles_mayApprove (hash : AccessHash) : Settles (s.mayApprove userId hash) :=
  settles_bind (settles_getFromInput hash _ _) fun _ => settles_require _ _ _

theorem settles_otherUser {code : Nat} {message : String} (input : InputUser) :
    Settles (otherUser userId (.rpc code message) input) := by
  unfold otherUser
  split
  · exact .inl ⟨code, message, rfl⟩
  · exact .inl ⟨code, message, rfl⟩
  · split
    · exact .inl ⟨code, message, rfl⟩
    · exact .inr ⟨_, rfl⟩

theorem settles_mapM {α β : Type} {f : α → Except Failure β} (each : ∀ a, Settles (f a)) :
    ∀ l : List α, Settles (l.mapM f)
  | [] => .inr ⟨[], rfl⟩
  | a :: l => by
    rw [List.mapM_cons]
    exact settles_bind (each a) fun _ => settles_bind (settles_mapM each l) fun _ => .inr ⟨_, rfl⟩

theorem settles_invitees (users added : List UserId) :
    Settles (s.invitees config env userId users added) := by
  induction users generalizing added with
  | nil => exact .inr ⟨added, rfl⟩
  | cons u rest ih =>
    unfold Roster.invitees
    split
    · exact ih added
    · split
      · exact .inl ⟨_, _, rfl⟩
      · exact ih (added ++ [u])

theorem settles_inviteToChannel (config : AppConfig) (env : Surroundings) (s : Roster)
    (userId : UserId) (hash : AccessHash) (users : List InputUser) :
    Settles (Roster.InviteToChannel.check config env s userId hash users) := by
  refine settles_bind (settles_require _ _ _) fun _ => ?_
  refine settles_bind (settles_orRaise _ _ _) fun _ => ?_
  refine settles_bind (settles_require _ _ _) fun _ => ?_
  refine settles_bind (settles_mapM settles_otherUser _) fun userIds => ?_
  exact settles_bind (settles_require _ _ _) fun _ => settles_invitees userIds []

theorem settles_joinChannel (env : Surroundings) (s : Roster) (userId : UserId)
    (hash : AccessHash) :
    Settles (Roster.JoinChannel.check env s userId hash) := by
  refine settles_bind (settles_getFromInput hash _ _) fun _ => ?_
  refine settles_bind (settles_require _ _ _) fun _ => ?_
  refine settles_bind (settles_require _ _ _) fun _ => ?_
  split
  · exact .inr ⟨(), rfl⟩
  · refine settles_bind (settles_require _ _ _) fun _ => ?_
    exact settles_bind (settles_orRaise _ _ _) fun _ => settles_require _ _ _

theorem settles_importChatInvite (env : Surroundings) (s : Roster) (userId : UserId)
    (hash : Roster.InviteHash) :
    Settles (Roster.ImportChatInvite.check env s userId hash) := by
  refine settles_bind (settles_require _ _ _) fun _ => ?_
  refine settles_bind (settles_orRaise _ _ _) fun invite => ?_
  refine settles_bind (settles_require _ _ _) fun _ => ?_
  refine settles_bind (settles_require _ _ _) fun _ => ?_
  refine settles_bind (settles_require _ _ _) fun _ => ?_
  exact settles_bind (settles_require _ _ _) fun _ => .inr ⟨invite, rfl⟩

theorem settles_userJoin (config : AppConfig) (env : Surroundings) (s : Roster) (userId : UserId) :
    Settles (Roster.UserJoin.check config env s userId) :=
  settles_bind (settles_require _ _ _) fun _ => settles_require _ _ _

theorem settles_hideChatJoinRequest (s : Roster) (userId : UserId) (hash : AccessHash) (requester : Option UserId) :
    Settles (Roster.HideChatJoinRequest.check s userId hash requester) :=
  settles_bind (settles_mayApprove hash) fun _ =>
    settles_bind (settles_orRaise _ _ _) fun _ => settles_orRaise _ _ _

theorem settles_hideAllChatJoinRequests (s : Roster) (userId : UserId) (hash : AccessHash)
    (invite : Option Roster.InviteHash) :
    Settles (Roster.HideAllChatJoinRequests.check s userId hash invite) := by
  refine settles_bind (settles_mayApprove hash) fun _ => ?_
  refine settles_bind ?_ fun requests => settles_bind (settles_require _ _ _) fun _ =>
    .inr ⟨requests, rfl⟩
  unfold Roster.requestsOf
  split
  · exact .inr ⟨_, rfl⟩
  · split
    · exact .inl ⟨_, _, rfl⟩
    · exact .inr ⟨_, rfl⟩

theorem userJoin_agree (fromInvite : Option ChatInvite) :
    (s.userJoinChatOrChannel config env userId fromInvite).RefusedOr (Agrees env s [userId]) := by
  refine (Ended.refusedOr_of_settles (settles_userJoin config env s userId)
    fun failure refused => ?_).mpr fun _ checked => ?_
  · simp only [Roster.userJoinChatOrChannel, refused]
  · simp only [Roster.userJoinChatOrChannel, checked]
    exact userJoin_agrees env s userId fromInvite

theorem addRequested_agree {requests : List ChatInviteRequest} (some_ : requests ≠ []) :
    (s.addRequestedUsersToChat config requests true).RefusedOr
        (Agrees env s (requests.map ChatInviteRequest.userId)) ↔
      (Roster.AddRequested.check config s requests true = .ok () →
        ∀ request ∈ requests, s.Fits env request.userId) := by
  have settles : Settles (Roster.AddRequested.check config s requests true) :=
    settles_bind (settles_require _ _ _) fun _ => .inr ⟨(), rfl⟩
  rw [Ended.refusedOr_of_settles settles fun failure refused => ?_]
  · constructor
    · intro all checked
      have here := all () checked
      simp only [Roster.addRequestedUsersToChat, if_neg some_, checked] at here
      exact addRequested_agrees.mp here
    · intro fits _ checked
      simp only [Roster.addRequestedUsersToChat, if_neg some_, checked]
      exact addRequested_agrees.mpr (fits checked)
  · simp only [Roster.addRequestedUsersToChat, if_neg some_, refused]

/-- The requests come without their users, so that nothing is written. -/
theorem addRequested_unfetched {requests : List ChatInviteRequest} {good : Roster → Prop}
    (some_ : requests ≠ []) :
    (s.addRequestedUsersToChat config requests false).RefusedOr good ↔
      (Roster.AddRequested.check config s requests true = .ok () → good s) := by
  unfold Roster.addRequestedUsersToChat Roster.AddRequested.check
  rw [if_neg some_]
  by_cases room : s.participants.rows.length + requests.length ≤ config.superGroupMemberLimit
  · rw [decide_eq_true room]
    exact ⟨fun here _ => here, fun here => here rfl⟩
  · rw [decide_eq_false room]
    exact ⟨fun _ checked => (by cases checked), fun _ => trivial⟩

theorem agrees_self_iff {joiners : List UserId} :
    Agrees env s joiners s ↔ ∀ u ∈ joiners, s.present u = true := by
  constructor
  · intro agrees u joins
    have exactly := agrees.exactly u
    rw [List.contains_iff_mem.mpr joins, Bool.or_true] at exactly
    exact exactly
  · intro present
    refine ⟨fun u joins absent => ?_, fun u => ?_⟩
    · rw [present u joins] at absent
      cases absent
    · by_cases joins : u ∈ joiners
      · rw [present u joins, Bool.true_or]
      · rw [Bool.eq_false_iff.mpr fun there => joins (List.contains_iff_mem.mp there),
          Bool.or_false]

theorem hideChatJoinRequest_spec {hash : AccessHash} {requester : Option UserId}
    {request : ChatInviteRequest}
    (checked : Roster.HideChatJoinRequest.check s userId hash requester = .ok request) :
    requester = some request.userId := by
  obtain ⟨-, checked⟩ := check_bind_eq_ok.mp checked
  obtain ⟨target, rfl, checked⟩ := orRaise_bind_eq_ok.mp checked
  have named := List.find?_some (orRaise_eq_ok.mp checked)
  rw [beq_iff_eq.mp named]

theorem hideAllChatJoinRequests_spec {hash : AccessHash} {invite : Option Roster.InviteHash}
    {requests : List ChatInviteRequest}
    (checked : Roster.HideAllChatJoinRequests.check s userId hash invite = .ok requests) :
    s.requestsOf invite = .ok requests ∧ requests ≠ [] := by
  obtain ⟨-, checked⟩ := check_bind_eq_ok.mp checked
  obtain ⟨found, named, checked⟩ := (bind_eq_ok _).mp checked
  obtain ⟨some_, done⟩ := check_bind_eq_ok.mp checked
  cases done
  refine ⟨named, ?_⟩
  rintro rfl
  cases require_eq_ok.mp some_

/-- A way to join agrees with the others exactly when approved users fit: those who join by the
username, by a link or by invitation always do. -/
theorem ways_agree_iff (config : AppConfig) (env : Surroundings) (s : Roster) (userId : UserId)
    (way : Way) : way.Agree config env s userId ↔ way.Fits config env s userId := by
  cases way with
  | username hash =>
    refine iff_of_true ?_ trivial
    refine (Ended.refusedOr_of_settles (settles_joinChannel env s userId hash)
      fun failure refused => ?_).mpr fun _ checked => ?_
    · simp only [Way.request, Command.handle, Roster.joinChannel, refused]
    · simp only [Way.request, Command.handle, Roster.joinChannel, checked]
      exact userJoin_agree none
  | link hash =>
    refine iff_of_true ?_ trivial
    refine (Ended.refusedOr_of_settles (settles_importChatInvite env s userId hash)
      fun failure refused => ?_).mpr fun invite checked => ?_
    · simp only [Way.request, Command.handle, Roster.importChatInvite, refused]
    · simp only [Way.request, Command.handle, Roster.importChatInvite, checked]
      split
      · trivial
      · exact userJoin_agree (some invite)
  | approval hash requester =>
    refine (Ended.refusedOr_of_settles (settles_hideChatJoinRequest s userId hash requester)
      fun failure refused => ?_).trans ?_
    · simp only [Way.request, Command.handle, Roster.hideChatJoinRequest, refused]
    · refine forall_congr' fun request => imp_congr_right fun checked => ?_
      have joiners : requester.toList = [request].map ChatInviteRequest.userId := by
        rw [hideChatJoinRequest_spec checked]
        rfl
      simp only [Way.request, Command.handle, Roster.hideChatJoinRequest, checked, if_true,
        Way.joiners, joiners]
      rw [addRequested_agree (List.cons_ne_nil _ _)]
      simp only [List.mem_singleton, forall_eq]
  | approvals hash invite =>
    refine (Ended.refusedOr_of_settles (settles_hideAllChatJoinRequests s userId hash invite)
      fun failure refused => ?_).trans ?_
    · simp only [Way.request, Command.handle, Roster.hideAllChatJoinRequests, refused]
    · refine forall_congr' fun requests => imp_congr_right fun checked => ?_
      simp only [Way.request, Command.handle, Roster.hideAllChatJoinRequests, checked, if_true]
      rw [addRequested_unfetched (hideAllChatJoinRequests_spec checked).2]
      refine imp_congr_right fun _ => ?_
      rw [Way.joiners, (hideAllChatJoinRequests_spec checked).1, agrees_self_iff]
      exact List.forall_mem_map
  | invitation hash users =>
    refine iff_of_true ?_ trivial
    refine (Ended.refusedOr_of_settles (settles_inviteToChannel config env s userId hash users)
      fun failure refused => ?_).mpr fun added checked => ?_
    · simp only [Way.request, Command.handle, Roster.inviteToChannel, refused]
    · simp only [Way.request, Command.handle, Roster.inviteToChannel, Way.joiners, checked]
      exact invite_agrees env s userId added

/-- A user joins, leaves, and asks to come back by a link that needs an approval. -/
def returningUser : List Command :=
  [⟨2, .joinChannel .valid, openSurroundings⟩,
    ⟨2, .leaveChannel .valid, openSurroundings⟩,
    ⟨1, .exportChatInvite .valid ⟨false, true, none, none, "n"⟩, openSurroundings⟩,
    ⟨2, .importChatInvite (.names 1 "n"), openSurroundings⟩]

/-- The request of a user who was there before is approved, and the user is still away. -/
theorem returningUser_stays_away : ∃ s,
    runFrom (step ⟨500, 100, 10⟩) (.createChannel 1 1 false true) returningUser = some s ∧
      ¬ (Way.approval .valid (some 2)).Agree ⟨500, 100, 10⟩ openSurroundings s 1 := by
  refine ⟨_, rfl, ?_⟩
  intro agree
  have now := Agrees.exactly agree 2
  revert now
  decide

end Ways

end Piltover.Members
