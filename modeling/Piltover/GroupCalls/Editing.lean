/- source: piltover/app/utils/group_calls.py
   digest: Joining and leaving a group call with its streams, and editing its participants. -/

import Piltover.GroupCalls.Participants

set_option autoImplicit false

namespace Piltover.GroupCalls

open Piltover.Foundation

structure Db where
  calls : Table GroupCall.id
  participants : Participants

/-- The address of the media server. -/
structure Env where
  publicIp : String
  deriving DecidableEq, Repr

inductive JoinAs
  | self
  | user (userId : Nat)
  | channel (channelId : Nat) (mayPost : Bool)
  | unknown
  deriving DecidableEq, Repr

/-- `resolve_join_as`. -/
def JoinAs.resolve (userId : Nat) : JoinAs → Except Failure (Option Nat × Option Nat)
  | .self => .ok (some userId, none)
  | .user userId => .ok (some userId, none)
  | .channel channelId mayPost => do
      require mayPost (.rpc 403 "CHAT_ADMIN_REQUIRED")
      .ok (none, some channelId)
  | .unknown => .error (.rpc 400 "PEER_ID_INVALID")

/-- A source that the client gives, or else random ones to try. -/
structure Ssrc where
  client : Option Int
  candidates : List Int
  deriving DecidableEq, Repr

structure Join where
  joinAs : JoinAs
  muted : Bool
  videoStopped : Bool
  inviteHash : Option String
  ssrc : Ssrc
  deriving DecidableEq, Repr

/-- Whose row is to be edited. -/
inductive Target
  | self
  | user (userId : Nat)
  | channel (channelId : Nat)
  | unknown
  deriving DecidableEq, Repr

/-- An edit, with what `ensure_can_manage_call` says of the editor and the time. -/
structure Edit where
  target : Target
  manages : Bool
  muted : Option Bool
  volume : Option Int
  raiseHand : Option Bool
  videoStopped : Option Bool
  videoPaused : Option Bool
  presentationPaused : Option Bool
  now : Int
  deriving DecidableEq, Repr

/-! ### Drafts of the requests -/

namespace Draft

variable (d : Draft)

/-- A participant comes back. -/
def rejoin (muted videoStopped : Bool) (joinAs : Option Nat × Option Nat) (source : Int) : Draft :=
  let d := (d.write (fun p => { p with left := false }) [.left]).normalizeAdminMuteDbState
  let d := d.write (fun p => { p with
    muted := if p.mutedByAdmin || p.isAdminVolumeSilent then true else muted
    videoStopped
    joinAsUserId := joinAs.1
    joinAsChannelId := joinAs.2 }) [.muted, .videoStopped, .joinAsUserId, .joinAsChannelId]
  if d.mem.source = source then d else d.write (fun p => { p with source }) [.source]

def leave : Draft :=
  d.write (fun p => { p with
    left := true
    videoSource := none
    videoEndpoint := none
    videoSourceGroups := none
    presentationSource := none
    presentationEndpoint := none
    presentationSourceGroups := none })
    [.left, .videoSource, .videoEndpoint, .videoSourceGroups, .presentationSource,
      .presentationEndpoint, .presentationSourceGroups]

def stopVideo : Draft :=
  d.write (fun p => { p with
    videoStopped := true
    videoSource := none
    videoEndpoint := none
    videoSourceGroups := none
    videoPaused := false })
    [.videoStopped, .videoSource, .videoEndpoint, .videoSourceGroups, .videoPaused]

def startVideo (source : Int) (endpoint : String) (groups : SourceGroups) : Draft :=
  d.write (fun p => { p with
    videoStopped := false
    videoPaused := false
    videoSource := some source
    videoEndpoint := some endpoint
    videoSourceGroups := some groups })
    [.videoStopped, .videoPaused, .videoSource, .videoEndpoint, .videoSourceGroups]

def startPresentation (source : Int) (endpoint : String) (groups : SourceGroups) : Draft :=
  d.write (fun p => { p with
    presentationPaused := false
    presentationSource := some source
    presentationEndpoint := some endpoint
    presentationSourceGroups := some groups })
    [.presentationPaused, .presentationSource, .presentationEndpoint, .presentationSourceGroups]

def stopPresentation : Draft :=
  d.write (fun p => { p with
    presentationSource := none
    presentationEndpoint := none
    presentationSourceGroups := none
    presentationPaused := false })
    [.presentationSource, .presentationEndpoint, .presentationSourceGroups, .presentationPaused]

/-- What a muting edit leaves. -/
def adminMute : Draft :=
  d.write (fun p => { p with
    muted := true
    mutedByAdmin := true
    volume := defaultGroupCallVolume
    volumeByAdmin := false }) [.muted, .mutedByAdmin, .volume, .volumeByAdmin]

/-- The `volume` of an edit. -/
def editVolume (volume : Int) : Draft :=
  if volume ≤ adminVolumeMuteThreshold then d.adminMute
  else
    let d := d.write (fun p => { p with
      volume
      volumeByAdmin := decide (volume ≠ defaultGroupCallVolume) }) [.volume, .volumeByAdmin]
    if d.mem.mutedByAdmin || d.mem.isAdminVolumeSilent then
      d.write (fun p => { p with
        muted := false
        mutedByAdmin := false
        volumeByAdmin := if volume = defaultGroupCallVolume then false else p.volumeByAdmin })
        [.volumeByAdmin, .muted, .mutedByAdmin]
    else d

/-- The `muted` of an edit. -/
def editMuted (editingSelf muted : Bool) : Draft :=
  if editingSelf && !muted && !d.mem.canSelfUnmute then d
  else if editingSelf then
    if muted then d.write (fun p => { p with muted := true }) [.muted]
    else d.write (fun p => { p with muted := false, mutedByAdmin := false }) [.muted, .mutedByAdmin]
  else if muted then d.adminMute
  else d.write (fun p => { p with
    muted := false
    mutedByAdmin := false
    volume := defaultGroupCallVolume
    volumeByAdmin := false }) [.muted, .mutedByAdmin, .volume, .volumeByAdmin]

/-- The `raise_hand` of an edit. -/
def editRaiseHand (editingSelf raiseHand : Bool) (now : Int) : Draft :=
  if !raiseHand && editingSelf && d.mem.isAdminMuted then d
  else if raiseHand then
    d.write (fun p => { p with
      raiseHandRating := some (p.raiseHandRating.elim now fun rating => max now (rating + 1)) })
      [.raiseHandRating]
  else d.write (fun p => { p with raiseHandRating := none }) [.raiseHandRating]

/-- The `video_stopped` of an edit. -/
def editVideoStopped (videoStopped : Bool) : Draft :=
  if videoStopped then d.stopVideo
  else d.write (fun p => { p with videoStopped := false }) [.videoStopped]

def editVideoPaused (videoPaused : Bool) : Draft :=
  d.write (fun p => { p with videoPaused }) [.videoPaused]

def editPresentationPaused (presentationPaused : Bool) : Draft :=
  d.write (fun p => { p with presentationPaused }) [.presentationPaused]

/-- One argument of an edit, where it is given. -/
def option {α : Type} (edit : Draft → α → Draft) (arg : Option α) : Draft :=
  arg.elim d (edit d)

/-- The arguments of an edit are applied in this order. -/
def edit (editingSelf : Bool) (e : Edit) : Draft :=
  let d := d.option editVolume e.volume
  let d := d.option (fun d muted => d.editMuted editingSelf muted) e.muted
  let d := d.option (fun d raiseHand => d.editRaiseHand editingSelf raiseHand e.now) e.raiseHand
  let d := d.option editVideoStopped e.videoStopped
  let d := d.option editVideoPaused e.videoPaused
  let d := d.option editPresentationPaused e.presentationPaused
  d.normalizeAdminMuteDbState

end Draft

namespace Db

variable (db : Db)

def getFromInputRaise (callId : Nat) : Except Failure GroupCall := do
  let call ← orRaise (db.calls.get callId) (.rpc 400 "GROUPCALL_INVALID")
  require call.discardedAt.isNone (.rpc 403 "GROUPCALL_FORBIDDEN")
  .ok call

/-- `bump_participants_version`, and the next source where it was given away. -/
def bump (call : GroupCall) : Db :=
  { db with
    calls := db.calls.modify (fun c => c.id == call.id) (fun c => { c with
      version := call.version + 1
      participantsVersion := call.version + 1 }) fun _ => rfl }

/-- `allocate_source`. -/
def allocate (call : GroupCall) (allocated : Bool) : Db :=
  if allocated then
    { db with
      calls := db.calls.modify (fun c => c.id == call.id)
        (fun c => { c with nextSource := call.nextSource + 1 }) fun _ => rfl }
  else db

/-- A draft is saved and the version of the call goes up; a source that is taken is an error of the
database. -/
def saveDraft (call : GroupCall) (d : Draft) : Db × Except Failure GroupCallParticipant :=
  match db.participants.save d.mem d.fields with
  | none => (db, .error .other)
  | some participants => ({ db with participants }.bump call, .ok d.mem)

def ensureUniqueSsrc (call : GroupCall) (userId : Nat) (ssrc : Ssrc) (excluded : List Int) :
    Except Failure (Int × Bool) :=
  chooseSsrc
    (takenSources ((db.participants.inCall call.id).filter fun p => !(p.userId == userId))) excluded
    ssrc.client ssrc.candidates call.nextSource

/-- What `join_group_call` finds out before it looks for the row of the user. -/
def prepareJoin (userId callId : Nat) (r : Join) :
    Except Failure (GroupCall × (Option Nat × Option Nat) × Int × Bool) := do
  let call ← db.getFromInputRaise callId
  require call.startedAt.isSome (.rpc 400 "GROUPCALL_INVALID")
  let joinAs ← r.joinAs.resolve userId
  require (r.inviteHash.isNone || r.inviteHash == call.inviteHash) (.rpc 400 "HASH_INVALID")
  let (source, allocated) ← db.ensureUniqueSsrc call userId r.ssrc []
  .ok (call, joinAs, source, allocated)

def createParticipant (call : GroupCall) (userId : Nat) (muted videoStopped : Bool)
    (joinAs : Option Nat × Option Nat) (source : Int) : Db × Except Failure GroupCallParticipant :=
  let p : GroupCallParticipant := {
    id := db.participants.table.nextKey
    groupCallId := call.id
    userId
    joinAsUserId := joinAs.1
    joinAsChannelId := joinAs.2
    source
    muted
    mutedByAdmin := false
    volume := defaultGroupCallVolume
    volumeByAdmin := false
    videoStopped
    videoSource := none
    presentationSource := none
    videoEndpoint := none
    presentationEndpoint := none
    videoSourceGroups := none
    presentationSourceGroups := none
    videoPaused := false
    presentationPaused := false
    raiseHandRating := none
    left := false }
  match db.participants.create p with
  | none => (db, .error .other)
  | some participants => ({ db with participants }.bump call, .ok p)

def joinGroupCall (userId callId : Nat) (r : Join) : Db × Except Failure GroupCallParticipant :=
  match db.prepareJoin userId callId r with
  | .error e => (db, .error e)
  | .ok (call, joinAs, source, allocated) =>
    let db := db.allocate call allocated
    let muted := call.joinMuted || r.muted
    match db.participants.of call.id userId with
    | none => db.createParticipant call userId muted r.videoStopped joinAs source
    | some p =>
      match p.logNormalize with
      | .error e => (db, .error e)
      | .ok () => db.saveDraft call ((Draft.mk p []).rejoin muted r.videoStopped joinAs source)

def requireActiveParticipant (call : GroupCall) (userId : Nat) :
    Except Failure GroupCallParticipant :=
  orRaise ((db.participants.of call.id userId).filter fun p => !p.left)
    (.rpc 400 "GROUPCALL_JOIN_MISSING")

def prepareStream (userId callId : Nat) : Except Failure (GroupCall × GroupCallParticipant) := do
  let call ← db.getFromInputRaise callId
  let p ← db.requireActiveParticipant call userId
  .ok (call, p)

def startStream (call : GroupCall) (p : GroupCallParticipant) (ssrc : Ssrc) (excluded : List Int)
    (start : Draft → Int → Draft) : Db × Except Failure GroupCallParticipant :=
  match db.ensureUniqueSsrc call p.userId ssrc excluded with
  | .error e => (db, .error e)
  | .ok (source, allocated) =>
    (db.allocate call allocated).saveDraft call (start (Draft.mk p []) source)

def joinGroupCallVideo (env : Env) (userId callId : Nat) (ssrc : Ssrc) (payload : SourceGroups)
    (videoStopped : Bool) : Db × Except Failure GroupCallParticipant :=
  match db.prepareStream userId callId with
  | .error e => (db, .error e)
  | .ok (call, p) =>
    if videoStopped then db.saveDraft call (Draft.mk p []).stopVideo
    else db.startStream call p ssrc [p.source] fun d source =>
      d.startVideo source (makeStreamEndpoint env.publicIp call.id userId "video")
        (parseSourceGroups payload source)

def joinGroupCallPresentation (env : Env) (userId callId : Nat) (ssrc : Ssrc)
    (payload : SourceGroups) : Db × Except Failure GroupCallParticipant :=
  match db.prepareStream userId callId with
  | .error e => (db, .error e)
  | .ok (call, p) =>
    -- `participant.video_source or -1`
    let video := if p.videoSource.getD 0 = 0 then -1 else p.videoSource.getD 0
    db.startStream call p ssrc [p.source, video] fun d source =>
      d.startPresentation source (makeStreamEndpoint env.publicIp call.id userId "presentation")
        (parseSourceGroups payload source)

def leaveGroupCallPresentation (userId callId : Nat) : Db × Except Failure GroupCallParticipant :=
  match db.prepareStream userId callId with
  | .error e => (db, .error e)
  | .ok (call, p) => db.saveDraft call (Draft.mk p []).stopPresentation

/-- `leave_group_call`; who is not there gets no error. -/
def leaveGroupCall (userId callId : Nat) : Db × Except Failure (Option GroupCallParticipant) :=
  match db.getFromInputRaise callId with
  | .error e => (db, .error e)
  | .ok call =>
    match (db.participants.of call.id userId).filter fun p => !p.left with
    | none => (db, .ok none)
    | some p =>
      let (db, result) := db.saveDraft call (Draft.mk p []).leave
      (db, result.map some)

/-- `resolve_group_call_participant`. -/
def resolveParticipant (call : GroupCall) (editor : Nat) :
    Target → Except Failure GroupCallParticipant
  | .self =>
    orRaise ((db.participants.of call.id editor).filter fun p => !p.left)
      (.rpc 400 "PARTICIPANT_JOIN_MISSING")
  | .user userId =>
    orRaise ((db.participants.of call.id userId).filter fun p => !p.left)
      (.rpc 400 "PARTICIPANT_JOIN_MISSING")
  | .channel channelId =>
    match (db.participants.inCall call.id).filter fun p =>
        p.joinAsChannelId == some channelId && !p.left with
    | [] => .error (.rpc 400 "PARTICIPANT_JOIN_MISSING")
    | [p] => .ok p
    | _ => .error .other
  | .unknown => .error (.rpc 400 "PEER_ID_INVALID")

def prepareEdit (editor callId : Nat) (e : Edit) :
    Except Failure (GroupCall × GroupCallParticipant) := do
  let call ← db.getFromInputRaise callId
  let p ← db.resolveParticipant call editor e.target
  p.formatMuteDebug
  let editingSelf := p.userId == editor
  require (editingSelf || e.manages) (.rpc 403 "CHAT_ADMIN_REQUIRED")
  require (e.volume.all fun volume => decide (0 ≤ volume) && decide (volume ≤ 20000))
    (.rpc 400 "USER_VOLUME_INVALID")
  require (e.volume.isNone || !editingSelf) (.rpc 400 "USER_VOLUME_INVALID")
  .ok (call, p)

/-- `edit_group_call_participant`, with whether anything has been saved. Later logs name no more
streams than the first. -/
def editGroupCallParticipant (editor callId : Nat) (e : Edit) :
    Db × Except Failure (GroupCallParticipant × Bool) :=
  match db.prepareEdit editor callId e with
  | .error failure => (db, .error failure)
  | .ok (call, p) =>
    let d := (Draft.mk p []).edit (p.userId == editor) e
    if d.fields.isEmpty then (db, .ok (p, false))
    else
      let (db, result) := db.saveDraft call d
      (db, result.map fun p => (p, true))

end Db

inductive Request
  | join (r : Join)
  | leave
  | video (ssrc : Ssrc) (payload : SourceGroups) (videoStopped : Bool)
  | presentation (ssrc : Ssrc) (payload : SourceGroups)
  | leavePresentation
  | edit (e : Edit)
  deriving DecidableEq, Repr

/-- A request of a user for a call. -/
structure Event where
  userId : Nat
  callId : Nat
  request : Request
  deriving DecidableEq, Repr

/-- The state after a request, and the participant that it gives, if it does not fail. -/
def Event.run (env : Env) (db : Db) (e : Event) :
    Db × Except Failure (Option GroupCallParticipant) :=
  match e.request with
  | .join r => (db.joinGroupCall e.userId e.callId r).map id (Except.map some)
  | .leave => db.leaveGroupCall e.userId e.callId
  | .video ssrc payload videoStopped =>
    (db.joinGroupCallVideo env e.userId e.callId ssrc payload videoStopped).map id (Except.map some)
  | .presentation ssrc payload =>
    (db.joinGroupCallPresentation env e.userId e.callId ssrc payload).map id (Except.map some)
  | .leavePresentation =>
    (db.leaveGroupCallPresentation e.userId e.callId).map id (Except.map some)
  | .edit edit =>
    (db.editGroupCallParticipant e.userId e.callId edit).map id
      (Except.map fun result => some result.1)

/-- Every request ends in a state, also one that fails. -/
def step (env : Env) (db : Db) (e : Event) : Option Db := some (e.run env db).1

end Piltover.GroupCalls
