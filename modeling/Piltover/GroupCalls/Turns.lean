/- source: piltover/app/handlers/group_calls.py, piltover/app/utils/group_calls.py,
     piltover/db/models/group_call.py
   digest: What requests for group calls read and write between their awaits. -/

import Piltover.Foundation.Interleaved
import Piltover.GroupCalls.Editing

set_option autoImplicit false

namespace Piltover.GroupCalls

open Piltover.Foundation
open Piltover.Foundation.Interleaved

structure Change where
  callId : Nat
  version : Nat
  deriving DecidableEq, Repr

/-- How a request ends; the last two are errors of the database. -/
inductive Ending
  | answered
  | raised (failure : Failure)
  | memberTaken
  | sourceTaken
  deriving DecidableEq, Repr

structure Hall where
  db : Db
  changes : List Change
  endings : List Ending

/-- What a request does with the call itself. -/
inductive Management
  | start
  | discard
  | settings (joinMuted : Option Bool) (inviteHash : Option String)
  | title (name : String)
  deriving DecidableEq, Repr

structure Creation where
  chat : Nat
  chatName : String
  broadcast : Bool
  title : Option String
  scheduleDate : Option Int
  deriving DecidableEq, Repr

/-- Requests; `refusal` is what `ensure_can_manage_call` raises. -/
inductive Asked
  | participate (userId callId : Nat) (r : Request)
  | manage (callId : Nat) (refusal : Option Failure) (m : Management)
  | create (refusal : Option Failure) (c : Creation)
  deriving DecidableEq, Repr

inductive Seat
  | audio (r : Join) (joinAs : Option Nat × Option Nat)
  | video (p : GroupCallParticipant) (ssrc : Ssrc) (payload : SourceGroups)
  | presentation (p : GroupCallParticipant) (ssrc : Ssrc) (payload : SourceGroups)
  deriving DecidableEq, Repr

/-- What a request of a participant has to do next. -/
inductive Stage
  | requiring (r : Request)
  | choosing (seat : Seat)
  | allocating (seat : Seat) (source : Int)
  | looking (r : Join) (joinAs : Option Nat × Option Nat) (source : Int)
  | creating (r : Join) (joinAs : Option Nat × Option Nat) (source : Int)
  | saving (d : Draft) (leaves : Bool)
  | bumping (leaves : Bool)
  | counting
  | discarding
  deriving DecidableEq, Repr

/-- A request of a participant under way, with the call as it has been loaded. -/
structure Visit where
  userId : Nat
  call : GroupCall
  stage : Stage
  deriving DecidableEq, Repr

/-- Requests under way. -/
inductive Pending
  | visit (v : Visit)
  | managing (call : GroupCall) (refusal : Option Failure) (m : Management)
  | clearing (callId : Nat)
  | opening (c : Creation)
  | dismissing (c : Creation) (active : GroupCall)
  | committing (c : Creation) (active : Option (GroupCall × List Nat))
  deriving DecidableEq, Repr

/-! ### Seats -/

namespace Seat

def ssrc : Seat → Ssrc
  | audio r _ => r.ssrc
  | video _ ssrc _ => ssrc
  | presentation _ ssrc _ => ssrc

/-- `exclude_sources`. -/
def excluded : Seat → List Int
  | audio _ _ => []
  | video p _ _ => [p.source]
  | presentation p _ _ =>
    [p.source, if p.videoSource.getD 0 = 0 then -1 else p.videoSource.getD 0]

def take (env : Env) (call : GroupCall) (userId : Nat) (source : Int) : Seat → Stage
  | audio r joinAs => .looking r joinAs source
  | video p _ payload =>
    .saving ((Draft.mk p []).startVideo source
      (makeStreamEndpoint env.publicIp call.id userId "video") (parseSourceGroups payload source))
      false
  | presentation p _ payload =>
    .saving ((Draft.mk p []).startPresentation source
      (makeStreamEndpoint env.publicIp call.id userId "presentation")
      (parseSourceGroups payload source)) false

end Seat

/-- A participant who joins for the first time; the identifier is given by the database. -/
def Join.participant (r : Join) (call : GroupCall) (userId : Nat)
    (joinAs : Option Nat × Option Nat) (source : Int) : GroupCallParticipant where
  id := 0
  groupCallId := call.id
  userId
  joinAsUserId := joinAs.1
  joinAsChannelId := joinAs.2
  source
  muted := call.joinMuted || r.muted
  mutedByAdmin := false
  volume := defaultGroupCallVolume
  volumeByAdmin := false
  videoStopped := r.videoStopped
  videoSource := none
  presentationSource := none
  videoEndpoint := none
  presentationEndpoint := none
  videoSourceGroups := none
  presentationSourceGroups := none
  videoPaused := false
  presentationPaused := false
  raiseHandRating := none
  left := false

def GroupCallParticipant.gone (p : GroupCallParticipant) : GroupCallParticipant :=
  { p with left := true }

namespace Participants

variable (ps : Participants)

private theorem map_gone {α : Type} (get : GroupCallParticipant → α)
    (which : GroupCallParticipant → Bool) (same : ∀ p, get p.gone = get p)
    (rows : List GroupCallParticipant) :
    (rows.map fun p => if which p then p.gone else p).map get = rows.map get := by
  rw [List.map_map]
  refine List.map_congr_left fun p _ => ?_
  rw [Function.comp_apply]
  split
  · exact same p
  · rfl

/-- `update(left=True)`. -/
def dismiss (which : GroupCallParticipant → Bool) : Participants where
  table := ps.table.modify which GroupCallParticipant.gone fun _ => rfl
  members := by
    simp only [Table.modify, map_gone GroupCallParticipant.member which fun _ => rfl]
    exact ps.members
  audios := by
    simp only [Table.modify, map_gone GroupCallParticipant.audio which fun _ => rfl]
    exact ps.audios

variable {ps} {p : GroupCallParticipant}

theorem mem_dismiss {which : GroupCallParticipant → Bool} :
    p ∈ (ps.dismiss which).table ↔ ∃ q ∈ ps.table, (if which q then q.gone else q) = p :=
  List.mem_map

theorem mem_write {mem : GroupCallParticipant} {fields : List Field} :
    p ∈ ps.write mem fields ↔
      ∃ q ∈ ps.table, (if q.id == mem.id then merge fields mem q else q) = p :=
  List.mem_map

end Participants

namespace Db

variable (db : Db)

def present (callId : Nat) : List GroupCallParticipant :=
  (db.participants.inCall callId).filter fun p => !p.left

/-- `get_active_group_call`: more than one is an error of the database. -/
def getActive (chat : Nat) : Except Failure (Option GroupCall) :=
  match db.calls.rows.filter fun c => c.chat == chat && c.discardedAt.isNone with
  | [] => .ok none
  | [call] => .ok (some call)
  | _ => .error .other

/-- `save` of fields of a call. -/
def saveCall (callId : Nat) (write : GroupCall → GroupCall) (keeps : ∀ c, (write c).id = c.id) :
    Db :=
  { db with calls := db.calls.modify (fun c => c.id == callId) write keeps }

/-- The checks of `edit_group_call_participant` on the participant. -/
def admitEdit (call : GroupCall) (editor : Nat) (e : Edit) :
    Except Failure GroupCallParticipant := do
  let p ← db.resolveParticipant call editor e.target
  p.formatMuteDebug
  let editingSelf := p.userId == editor
  require (editingSelf || e.manages) (.rpc 403 "CHAT_ADMIN_REQUIRED")
  require (e.volume.all fun volume => decide (0 ≤ volume) && decide (volume ≤ 20000))
    (.rpc 400 "USER_VOLUME_INVALID")
  require (e.volume.isNone || !editingSelf) (.rpc 400 "USER_VOLUME_INVALID")
  .ok p

end Db

/-! ### Turns -/

namespace GroupCall

variable (call : GroupCall)

/-- The row after `bump_participants_version`. -/
def bumped : GroupCall :=
  { call with version := call.version + 1, participantsVersion := call.version + 1 }

def discardedFrom (loaded : GroupCall) (now : Int) : GroupCall :=
  { call with discardedAt := some now, version := loaded.version + 1 }

end GroupCall

namespace Hall

variable (hall : Hall)

def ends (ending : Ending) : Hall × Option Pending :=
  ({ hall with endings := hall.endings ++ [ending] }, none)

/-- The call gets a new version. -/
def change (db : Db) (changes : List Change) : Hall :=
  { hall with db, changes := hall.changes ++ changes }

def closeActive (now : Int) : Option (GroupCall × List Nat) → Hall
  | none => hall
  | some (active, ids) =>
    hall.change { hall.db.saveCall active.id (·.discardedFrom active now) fun _ => rfl with
      participants := hall.db.participants.dismiss fun p => ids.contains p.id }
      [⟨active.id, active.version + 1⟩]

end Hall

namespace Management

/-- The checks on the loaded call. -/
def check (m : Management) (loaded : GroupCall) (refusal : Option Failure) :
    Except Failure Unit := do
  require (loaded.startedAt.isNone || decide (m ≠ start)) (.rpc 400 "GROUPCALL_ALREADY_STARTED")
  match refusal with
  | none => .ok ()
  | some failure => .error failure

/-- The row after the fields are saved. -/
def write (m : Management) (loaded : GroupCall) (now : Int) (row : GroupCall) : GroupCall :=
  match m with
  | start => { row with startedAt := some now, version := loaded.version + 1 }
  | discard => row.discardedFrom loaded now
  | settings joinMuted inviteHash =>
    { row with
      joinMuted := joinMuted.getD row.joinMuted
      inviteHash := inviteHash.or row.inviteHash
      version := loaded.version + 1 }
  | title name => { row with title := some name, version := loaded.version + 1 }

theorem id_write (m : Management) (loaded : GroupCall) (now : Int) (row : GroupCall) :
    (m.write loaded now row).id = row.id := by
  cases m <;> rfl

end Management

namespace Visit

variable (env : Env) (v : Visit) (hall : Hall)

def goesOn (stage : Stage) : Option Pending := some (.visit { v with stage })

def entry : Request → Except Failure (Option Stage)
  | .join r => do
      require v.call.startedAt.isSome (.rpc 400 "GROUPCALL_INVALID")
      let joinAs ← r.joinAs.resolve v.userId
      require (r.inviteHash.isNone || r.inviteHash == v.call.inviteHash) (.rpc 400 "HASH_INVALID")
      .ok (some (.choosing (.audio r joinAs)))
  | .leave =>
    .ok (((hall.db.participants.of v.call.id v.userId).filter fun p => !p.left).map fun p =>
      .saving (Draft.mk p []).leave true)
  | .video ssrc payload videoStopped => do
      let p ← hall.db.requireActiveParticipant v.call v.userId
      .ok (some (if videoStopped then .saving (Draft.mk p []).stopVideo false
        else .choosing (.video p ssrc payload)))
  | .presentation ssrc payload => do
      let p ← hall.db.requireActiveParticipant v.call v.userId
      .ok (some (.choosing (.presentation p ssrc payload)))
  | .leavePresentation => do
      let p ← hall.db.requireActiveParticipant v.call v.userId
      .ok (some (.saving (Draft.mk p []).stopPresentation false))
  | .edit e => do
      let p ← hall.db.admitEdit v.call v.userId e
      let d := (Draft.mk p []).edit (p.userId == v.userId) e
      .ok (if d.fields.isEmpty then none else some (.saving d false))

/-- The source that a seat gets, and whether it is the next one of the call. -/
def choose (seat : Seat) : Except Failure (Int × Bool) :=
  hall.db.ensureUniqueSsrc v.call v.userId seat.ssrc seat.excluded

/-- The row of the user is looked for. -/
def look (r : Join) (joinAs : Option Nat × Option Nat) (source : Int) : Except Failure Stage :=
  match hall.db.participants.of v.call.id v.userId with
  | none => .ok (.creating r joinAs source)
  | some p => do
      p.logNormalize
      .ok (.saving ((Draft.mk p []).rejoin (v.call.joinMuted || r.muted) r.videoStopped joinAs
        source) false)

def create (r : Join) (joinAs : Option Nat × Option Nat) (source : Int) : Hall × Option Pending :=
  let p := r.participant v.call v.userId joinAs source
  match hall.db.participants.create p with
  | some participants =>
    ({ hall with db := { hall.db with participants } }, v.goesOn (.bumping false))
  | none =>
    hall.ends (if hall.db.participants.table.rows.any fun q => q.member == p.member
      then .memberTaken else .sourceTaken)

/-- A row is saved. -/
def save (d : Draft) (leaves : Bool) : Hall × Option Pending :=
  match hall.db.participants.save d.mem d.fields with
  | some participants =>
    ({ hall with db := { hall.db with participants } }, v.goesOn (.bumping leaves))
  | none => hall.ends .sourceTaken

def advance (now : Int) : Hall × Option Pending :=
  match v.stage with
  | .requiring r =>
    match v.entry hall r with
    | .error failure => hall.ends (.raised failure)
    | .ok none => hall.ends .answered
    | .ok (some stage) => (hall, v.goesOn stage)
  | .choosing seat =>
    match v.choose hall seat with
    | .error failure => hall.ends (.raised failure)
    | .ok (source, allocated) =>
      (hall, v.goesOn (if allocated then .allocating seat source
        else seat.take env v.call v.userId source))
  | .allocating seat source =>
    ({ hall with db := hall.db.allocate v.call true },
      v.goesOn (seat.take env v.call v.userId source))
  | .looking r joinAs source =>
    match v.look hall r joinAs source with
    | .error failure => hall.ends (.raised failure)
    | .ok stage => (hall, v.goesOn stage)
  | .creating r joinAs source => v.create hall r joinAs source
  | .saving d leaves => v.save hall d leaves
  | .bumping leaves =>
    let hall := hall.change (hall.db.bump v.call) [⟨v.call.id, v.call.version + 1⟩]
    if leaves then (hall, some (.visit { v with call := v.call.bumped, stage := .counting }))
    else hall.ends .answered
  | .counting =>
    if (hall.db.present v.call.id).isEmpty && v.call.discardedAt.isNone then
      (hall, v.goesOn .discarding)
    else hall.ends .answered
  | .discarding =>
    (hall.change (hall.db.saveCall v.call.id (·.discardedFrom v.call now) fun _ => rfl)
      [⟨v.call.id, v.call.version + 1⟩]).ends .answered

end Visit

namespace Creation

variable (c : Creation) (hall : Hall)

/-- The new call. -/
def call (id : Nat) (now : Int) : GroupCall where
  id
  startedAt := if c.scheduleDate.isSome then none else some now
  discardedAt := none
  scheduleDate := c.scheduleDate
  joinMuted := c.broadcast
  title := c.title.or (some c.chatName)
  version := 1
  participantsVersion := 1
  nextSource := 1
  inviteHash := none
  chat := c.chat

def commit (active : Option (GroupCall × List Nat)) (now : Int) : Hall × Option Pending :=
  let hall := hall.closeActive now active
  let call := c.call hall.db.calls.nextKey now
  (hall.change { hall.db with calls := hall.db.calls.insert call } [⟨call.id, 1⟩]).ends .answered

end Creation

/-- One turn of a request. -/
def Pending.advance (env : Env) (hall : Hall) (now : Int) : Pending → Hall × Option Pending
  | .visit v => v.advance env hall now
  | .managing call refusal m =>
    match m.check call refusal with
    | .error failure => hall.ends (.raised failure)
    | .ok () =>
      let hall := hall.change
        (hall.db.saveCall call.id (m.write call now) (m.id_write call now))
        [⟨call.id, call.version + 1⟩]
      if m = .discard then (hall, some (.clearing call.id)) else hall.ends .answered
  | .clearing callId =>
    Hall.ends { hall with db := { hall.db with
      participants := hall.db.participants.dismiss fun p =>
        p.groupCallId == callId && !p.left } } .answered
  | .opening c =>
    match hall.db.getActive c.chat with
    | .error failure => hall.ends (.raised failure)
    | .ok none => (hall, some (.committing c none))
    | .ok (some active) => (hall, some (.dismissing c active))
  | .dismissing c active =>
    (hall, some (.committing c (some (active, (hall.db.present active.id).map (·.id)))))
  | .committing c active => c.commit hall active now

/-- The first turn: the call is loaded. -/
def Asked.begin (hall : Hall) : Asked → Hall × Option Pending
  | .participate userId callId r =>
    match hall.db.getFromInputRaise callId with
    | .error failure => hall.ends (.raised failure)
    | .ok call => (hall, some (.visit ⟨userId, call, .requiring r⟩))
  | .manage callId refusal m =>
    match hall.db.getFromInputRaise callId with
    | .error failure => hall.ends (.raised failure)
    | .ok call => (hall, some (.managing call refusal m))
  | .create refusal c =>
    match refusal with
    | some failure => hall.ends (.raised failure)
    | none => (hall, some (.opening c))

/-- Requests for group calls in any order of their turns, each at its time. -/
def visiting (env : Env) : Machine Hall Asked Pending Int Empty where
  begin := fun hall asked _ => asked.begin hall
  advance := fun hall pending now => pending.advance env hall now
  disturb := fun _ other => nomatch other

end Piltover.GroupCalls
