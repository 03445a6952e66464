/- source: piltover/db/models/group_call.py, piltover/db/models/group_call_participant.py,
     piltover/app/utils/group_calls.py
   digest: Group calls, their participants, and how rows are saved field by field. -/

import Piltover.Failure
import Piltover.Foundation.Table

set_option autoImplicit false

namespace Piltover.GroupCalls

open Piltover.Foundation

/-- A group of sources in the JSON of a client; a source is what `int` makes of it, if it does not
raise. -/
inductive SourceGroup
  /-- No dictionary, or one whose `sources` is no list. -/
  | skipped
  | group (semantics : String) (sources : List (Option Int))
  deriving DecidableEq, Repr

abbrev SourceGroups := List SourceGroup

def SourceGroup.readable : SourceGroup → Bool
  | skipped => true
  | group _ sources => sources.all Option.isSome

structure GroupCall where
  id : Nat
  startedAt : Option Int
  discardedAt : Option Int
  scheduleDate : Option Int
  joinMuted : Bool
  title : Option String
  version : Nat
  participantsVersion : Nat
  nextSource : Int
  inviteHash : Option String
  chat : Nat
  deriving DecidableEq, Repr

structure GroupCallParticipant where
  id : Nat
  groupCallId : Nat
  userId : Nat
  joinAsUserId : Option Nat
  joinAsChannelId : Option Nat
  source : Int
  muted : Bool
  mutedByAdmin : Bool
  volume : Int
  volumeByAdmin : Bool
  videoStopped : Bool
  videoSource : Option Int
  presentationSource : Option Int
  videoEndpoint : Option String
  presentationEndpoint : Option String
  videoSourceGroups : Option SourceGroups
  presentationSourceGroups : Option SourceGroups
  videoPaused : Bool
  presentationPaused : Bool
  raiseHandRating : Option Int
  left : Bool
  deriving DecidableEq, Repr

def defaultGroupCallVolume : Int := 10000

def adminVolumeMuteThreshold : Int := 100

namespace GroupCallParticipant

variable (p : GroupCallParticipant)

def isAdminVolumeSilent : Bool := p.volumeByAdmin && decide (p.volume ≤ adminVolumeMuteThreshold)

def isAdminMuted : Bool := p.mutedByAdmin || p.isAdminVolumeSilent

def canSelfUnmute : Bool := !p.isAdminMuted

def shouldPauseSfuAudio : Bool := p.muted || p.isAdminMuted

def groups : SourceGroups := p.videoSourceGroups.getD [] ++ p.presentationSourceGroups.getD []

/-- `format_mute_debug`, which makes a stream of each source with an endpoint. -/
def formatMuteDebug : Except Failure Unit := do
  require (p.videoSource.isNone || (p.videoEndpoint.getD "").isEmpty ||
    (p.videoSourceGroups.getD []).all SourceGroup.readable) .other
  require (p.presentationSource.isNone || (p.presentationEndpoint.getD "").isEmpty ||
    (p.presentationSourceGroups.getD []).all SourceGroup.readable) .other

/-- The log of `normalize_admin_mute_db_state`, where there is something to normalize. -/
def logNormalize : Except Failure Unit :=
  if !p.isAdminVolumeSilent || p.mutedByAdmin then .ok () else p.formatMuteDebug

/-- `participant_active_sources`. -/
def sources : List Int := p.source :: (p.videoSource.toList ++ p.presentationSource.toList)

/-- The columns that are unique together. -/
def member : Nat × Nat := (p.groupCallId, p.userId)

def audio : Nat × Int := (p.groupCallId, p.source)

end GroupCallParticipant

/-! ### Saving fields -/

/-- The columns that are saved after the creation. -/
inductive Field
  | joinAsUserId
  | joinAsChannelId
  | source
  | muted
  | mutedByAdmin
  | volume
  | volumeByAdmin
  | videoStopped
  | videoSource
  | presentationSource
  | videoEndpoint
  | presentationEndpoint
  | videoSourceGroups
  | presentationSourceGroups
  | videoPaused
  | presentationPaused
  | raiseHandRating
  | left
  deriving DecidableEq, Repr

/-- The row after `save(update_fields=...)` of what is in memory. -/
def merge (fields : List Field) (mem row : GroupCallParticipant) : GroupCallParticipant where
  id := row.id
  groupCallId := row.groupCallId
  userId := row.userId
  joinAsUserId := if .joinAsUserId ∈ fields then mem.joinAsUserId else row.joinAsUserId
  joinAsChannelId := if .joinAsChannelId ∈ fields then mem.joinAsChannelId else row.joinAsChannelId
  source := if .source ∈ fields then mem.source else row.source
  muted := if .muted ∈ fields then mem.muted else row.muted
  mutedByAdmin := if .mutedByAdmin ∈ fields then mem.mutedByAdmin else row.mutedByAdmin
  volume := if .volume ∈ fields then mem.volume else row.volume
  volumeByAdmin := if .volumeByAdmin ∈ fields then mem.volumeByAdmin else row.volumeByAdmin
  videoStopped := if .videoStopped ∈ fields then mem.videoStopped else row.videoStopped
  videoSource := if .videoSource ∈ fields then mem.videoSource else row.videoSource
  presentationSource :=
    if .presentationSource ∈ fields then mem.presentationSource else row.presentationSource
  videoEndpoint := if .videoEndpoint ∈ fields then mem.videoEndpoint else row.videoEndpoint
  presentationEndpoint :=
    if .presentationEndpoint ∈ fields then mem.presentationEndpoint else row.presentationEndpoint
  videoSourceGroups :=
    if .videoSourceGroups ∈ fields then mem.videoSourceGroups else row.videoSourceGroups
  presentationSourceGroups :=
    if .presentationSourceGroups ∈ fields then mem.presentationSourceGroups
    else row.presentationSourceGroups
  videoPaused := if .videoPaused ∈ fields then mem.videoPaused else row.videoPaused
  presentationPaused :=
    if .presentationPaused ∈ fields then mem.presentationPaused else row.presentationPaused
  raiseHandRating := if .raiseHandRating ∈ fields then mem.raiseHandRating else row.raiseHandRating
  left := if .left ∈ fields then mem.left else row.left

theorem merge_nil (mem row : GroupCallParticipant) : merge [] mem row = row := by
  cases row
  rfl

structure Participants where
  table : Table GroupCallParticipant.id
  members : (table.rows.map GroupCallParticipant.member).Nodup
  audios : (table.rows.map GroupCallParticipant.audio).Nodup

namespace Participants

def empty : Participants := ⟨Table.empty, by simp [Table.empty], by simp [Table.empty]⟩

variable (ps : Participants)

def of (groupCallId userId : Nat) : Option GroupCallParticipant :=
  ps.table.rows.find? fun p => p.groupCallId == groupCallId && p.userId == userId

def inCall (groupCallId : Nat) : List GroupCallParticipant :=
  ps.table.rows.filter fun p => p.groupCallId == groupCallId

/-- `GroupCallParticipant.create`; the identifier is the next one. -/
def create (p : GroupCallParticipant) : Option Participants :=
  let row := { p with id := ps.table.nextKey }
  if taken : (ps.table.rows.any fun q => q.member == row.member) ||
      ps.table.rows.any fun q => q.audio == row.audio then none
  else
    have free := (Bool.or_eq_false_iff.mp (Bool.eq_false_iff.mpr taken))
    some {
      table := ps.table.insert row
      members := by
        rw [Table.rows_insert ps.table.get_nextKey, List.map_append, List.map_singleton,
          List.nodup_append]
        refine ⟨ps.members, List.nodup_singleton _, fun old listed new here same => ?_⟩
        obtain rfl := List.mem_singleton.mp here
        exact Bool.eq_false_iff.mp free.1 (Table.any_beq_iff.mpr (same ▸ listed))
      audios := by
        rw [Table.rows_insert ps.table.get_nextKey, List.map_append, List.map_singleton,
          List.nodup_append]
        refine ⟨ps.audios, List.nodup_singleton _, fun old listed new here same => ?_⟩
        obtain rfl := List.mem_singleton.mp here
        exact Bool.eq_false_iff.mp free.2 (Table.any_beq_iff.mpr (same ▸ listed)) }

/-- The rows after fields of a participant are written. -/
def write (p : GroupCallParticipant) (fields : List Field) : Table GroupCallParticipant.id :=
  ps.table.modify (fun row => row.id == p.id) (merge fields p) fun _ => rfl

theorem members_write (p : GroupCallParticipant) (fields : List Field) :
    (ps.write p fields).rows.map GroupCallParticipant.member =
      ps.table.rows.map GroupCallParticipant.member := by
  simp only [write, Table.modify, List.map_map]
  refine List.map_congr_left fun row _ => ?_
  rw [Function.comp_apply]
  split <;> rfl

/-- `save(update_fields=...)`, unless a source is taken. -/
def save (p : GroupCallParticipant) (fields : List Field) : Option Participants :=
  if free : ((ps.write p fields).rows.map GroupCallParticipant.audio).Nodup then
    some {
      table := ps.write p fields
      members := by
        rw [members_write]
        exact ps.members
      audios := free }
  else none

end Participants

/-! ### Sources -/

/-- `_participant_taken_sources`: those of the others in the call, who may have left. -/
def takenSources (others : List GroupCallParticipant) : List Int :=
  others.flatMap GroupCallParticipant.sources

/-- `ensure_unique_ssrc`: the source, and whether it is the next one of the call. -/
def chooseSsrc (taken excluded : List Int) (ssrc : Option Int) (candidates : List Int)
    (nextSource : Int) : Except Failure (Int × Bool) :=
  let taken := taken.filter fun source => !excluded.contains source
  match ssrc with
  | some ssrc => do
      require (!taken.contains ssrc) (.rpc 400 "GROUPCALL_SSRC_DUPLICATE_MUCH")
      .ok (ssrc, false)
  | none =>
    match (candidates.take 10).find? fun candidate => !taken.contains candidate with
    | some candidate => .ok (candidate, false)
    | none => .ok (nextSource, true)

def parseSourceGroups (payload : SourceGroups) (fallbackSsrc : Int) : SourceGroups :=
  if payload.isEmpty then [.group "default" [some fallbackSsrc]] else payload

theorem mem_parseSourceGroups {payload : SourceGroups} {fallbackSsrc : Int} {g : SourceGroup}
    (listed : g ∈ parseSourceGroups payload fallbackSsrc) : g ∈ payload ∨ g.readable = true := by
  unfold parseSourceGroups at listed
  split at listed
  · exact .inr (by rw [List.mem_singleton.mp listed]; rfl)
  · exact .inl listed

def makeStreamEndpoint (publicIp : String) (groupCallId userId : Nat) (streamKind : String) :
    String :=
  publicIp ++ "/" ++ toString groupCallId ++ "/" ++ toString userId ++ "/" ++ streamKind

/-! ### Drafts: a participant in memory, and the fields to save -/

structure Draft where
  mem : GroupCallParticipant
  fields : List Field
  deriving DecidableEq, Repr

namespace Draft

variable (d : Draft)

/-- Fields are changed in memory and listed to be saved. -/
def write (change : GroupCallParticipant → GroupCallParticipant) (fields : List Field) : Draft :=
  ⟨change d.mem, d.fields ++ fields⟩

def normalizeAdminMuteDbState : Draft :=
  if !d.mem.isAdminVolumeSilent || d.mem.mutedByAdmin then d
  else d.write (fun p => { p with
      muted := true
      mutedByAdmin := true
      volume := defaultGroupCallVolume
      volumeByAdmin := false }) [.muted, .mutedByAdmin, .volume, .volumeByAdmin]

end Draft

def SameAt (p q : GroupCallParticipant) : Field → Prop
  | .joinAsUserId => p.joinAsUserId = q.joinAsUserId
  | .joinAsChannelId => p.joinAsChannelId = q.joinAsChannelId
  | .source => p.source = q.source
  | .muted => p.muted = q.muted
  | .mutedByAdmin => p.mutedByAdmin = q.mutedByAdmin
  | .volume => p.volume = q.volume
  | .volumeByAdmin => p.volumeByAdmin = q.volumeByAdmin
  | .videoStopped => p.videoStopped = q.videoStopped
  | .videoSource => p.videoSource = q.videoSource
  | .presentationSource => p.presentationSource = q.presentationSource
  | .videoEndpoint => p.videoEndpoint = q.videoEndpoint
  | .presentationEndpoint => p.presentationEndpoint = q.presentationEndpoint
  | .videoSourceGroups => p.videoSourceGroups = q.videoSourceGroups
  | .presentationSourceGroups => p.presentationSourceGroups = q.presentationSourceGroups
  | .videoPaused => p.videoPaused = q.videoPaused
  | .presentationPaused => p.presentationPaused = q.presentationPaused
  | .raiseHandRating => p.raiseHandRating = q.raiseHandRating
  | .left => p.left = q.left

theorem SameAt.refl (p : GroupCallParticipant) (f : Field) : SameAt p p f := by
  cases f <;> rfl

theorem SameAt.trans {p q r : GroupCallParticipant} {f : Field} (first : SameAt p q f)
    (second : SameAt q r f) : SameAt p r f := by
  cases f <;> exact Eq.trans first second

/-- The draft is of the row, and what has been changed is listed. -/
structure Draft.Covers (d : Draft) (row : GroupCallParticipant) : Prop where
  id : d.mem.id = row.id
  groupCallId : d.mem.groupCallId = row.groupCallId
  userId : d.mem.userId = row.userId
  rest : ∀ f, f ∉ d.fields → SameAt d.mem row f

namespace Draft.Covers

variable {d : Draft} {row : GroupCallParticipant}

theorem start (row : GroupCallParticipant) : Covers ⟨row, []⟩ row :=
  ⟨rfl, rfl, rfl, fun f _ => SameAt.refl row f⟩

theorem write {change : GroupCallParticipant → GroupCallParticipant} {fields : List Field}
    (covers : d.Covers row) (id : (change d.mem).id = d.mem.id)
    (groupCallId : (change d.mem).groupCallId = d.mem.groupCallId)
    (userId : (change d.mem).userId = d.mem.userId)
    (rest : ∀ f, f ∉ fields → SameAt (change d.mem) d.mem f) : (d.write change fields).Covers row where
  id := id.trans covers.id
  groupCallId := groupCallId.trans covers.groupCallId
  userId := userId.trans covers.userId
  rest := by
    intro f absent
    rw [Draft.write, List.mem_append, not_or] at absent
    exact (rest f absent.2).trans (covers.rest f absent.1)

private theorem pick {α : Type} {listed : Prop} [Decidable listed] {a b : α}
    (same : ¬ listed → a = b) : (if listed then a else b) = a := by
  split
  · rfl
  · rename_i absent
    exact (same absent).symm

/-- What is saved is what is in memory. -/
theorem merge_eq (covers : d.Covers row) : merge d.fields d.mem row = d.mem := by
  obtain ⟨mem, fields⟩ := d
  obtain ⟨id, groupCallId, userId, rest⟩ := covers
  cases mem
  simp only [merge, GroupCallParticipant.mk.injEq]
  exact ⟨id.symm, groupCallId.symm, userId.symm, pick (rest .joinAsUserId),
    pick (rest .joinAsChannelId), pick (rest .source), pick (rest .muted),
    pick (rest .mutedByAdmin), pick (rest .volume), pick (rest .volumeByAdmin),
    pick (rest .videoStopped), pick (rest .videoSource), pick (rest .presentationSource),
    pick (rest .videoEndpoint), pick (rest .presentationEndpoint), pick (rest .videoSourceGroups),
    pick (rest .presentationSourceGroups), pick (rest .videoPaused),
    pick (rest .presentationPaused), pick (rest .raiseHandRating), pick (rest .left)⟩

theorem normalize (covers : d.Covers row) : d.normalizeAdminMuteDbState.Covers row := by
  unfold normalizeAdminMuteDbState
  split
  · exact covers
  · refine covers.write rfl rfl rfl fun f absent => ?_
    cases f <;> first
      | rfl
      | simp at absent

end Draft.Covers

/-! ### Rows after a creation and a saving -/

namespace Participants

variable {ps ps' : Participants} {p row : GroupCallParticipant} {fields : List Field}

theorem of_eq_some {groupCallId userId : Nat} (found : ps.of groupCallId userId = some p) :
    p ∈ ps.table ∧ p.groupCallId = groupCallId ∧ p.userId = userId := by
  have fits := List.find?_some found
  rw [Bool.and_eq_true, beq_iff_eq, beq_iff_eq] at fits
  exact ⟨Table.mem_def.mpr (List.mem_of_find?_eq_some found), fits.1, fits.2⟩

theorem of_eq_some_of_mem (here : p ∈ ps.table) : ps.of p.groupCallId p.userId = some p := by
  cases found : ps.of p.groupCallId p.userId with
  | none =>
    have unlike := List.find?_eq_none.mp found p (Table.mem_def.mp here)
    simp at unlike
  | some q =>
    obtain ⟨there, call, user⟩ := of_eq_some found
    have same : q.member = p.member := Prod.ext call user
    exact congrArg some (List.inj_on_of_nodup_map ps.members there here same)

theorem create_eq_some (made : ps.create p = some ps') :
    ps.table.get ps.table.nextKey = none ∧
      ps'.table = ps.table.insert { p with id := ps.table.nextKey } := by
  unfold create at made
  dsimp only at made
  split at made
  · cases made
  · cases made
    exact ⟨ps.table.get_nextKey, rfl⟩

theorem save_eq_some (saved : ps.save p fields = some ps') : ps'.table = ps.write p fields := by
  unfold save at saved
  split at saved
  · cases saved
    rfl
  · cases saved

theorem get_write (ps : Participants) (p : GroupCallParticipant) (fields : List Field) (k : Nat) :
    (ps.write p fields).get k =
      if p.id = k then (ps.table.get k).map (merge fields p) else ps.table.get k :=
  Table.get_modify_key ps.table (merge fields p) (fun _ => rfl) p.id k

theorem get_save {d : Draft} (saved : ps.save d.mem d.fields = some ps')
    (here : ps.table.get row.id = some row) (covers : d.Covers row) (k : Nat) :
    ps'.table.get k = if row.id = k then some d.mem else ps.table.get k := by
  rw [save_eq_some saved, get_write, covers.id]
  split
  · rename_i same
    subst same
    rw [here, Option.map_some, covers.merge_eq]
  · rfl

end Participants

end Piltover.GroupCalls
