/- source: piltover/app/handlers/group_calls.py, piltover/app/utils/group_calls.py,
     piltover/db/models/group_call_participant.py
   digest: Which streams have a source, and which requests under way are about to give one. -/

import Piltover.GroupCalls.Turns

set_option autoImplicit false

namespace Piltover.GroupCalls

open Piltover.Foundation
open Piltover.Foundation.Interleaved

inductive Kind
  | audio
  | video
  | presentation
  deriving DecidableEq, Repr

def Kind.field : Kind → Field
  | audio => .source
  | video => .videoSource
  | presentation => .presentationSource

def GroupCallParticipant.stream (p : GroupCallParticipant) : Kind → Option Int
  | .audio => some p.source
  | .video => p.videoSource
  | .presentation => p.presentationSource

theorem mem_sources {p : GroupCallParticipant} {source : Int} :
    source ∈ p.sources ↔ ∃ k, p.stream k = some source := by
  simp only [GroupCallParticipant.sources, List.mem_cons, List.mem_append, Option.mem_toList]
  constructor
  · rintro (rfl | here | here)
    · exact ⟨.audio, rfl⟩
    · exact ⟨.video, here⟩
    · exact ⟨.presentation, here⟩
  · rintro ⟨k, here⟩
    cases k with
    | audio => exact .inl (Option.some.inj here).symm
    | video => exact .inr (.inl here)
    | presentation => exact .inr (.inr here)

structure Holder where
  userId : Nat
  kind : Kind
  deriving DecidableEq, Repr

namespace Db

variable (db : Db)

def Uses (callId : Nat) (h : Holder) (source : Int) : Prop :=
  ∃ p ∈ db.participants.table, p.groupCallId = callId ∧ p.userId = h.userId ∧
    p.stream h.kind = some source

def checkGroupCall (userId callId : Nat) (sources : List Int) : Except Failure (List Int) := do
  let call ← db.getFromInputRaise callId
  let _ ← db.requireActiveParticipant call userId
  .ok (sources.filter (takenSources (db.present call.id)).contains)

/-- `get_group_participants` for sources, without the order and the limit. -/
def lookUp (callId : Nat) (sources : List Int) : List GroupCallParticipant :=
  (db.participants.inCall callId).filter fun p => sources.any p.sources.contains

end Db

/-! ### What drafts give -/

namespace Draft

variable {d : Draft} {p : GroupCallParticipant} {k : Kind} {source : Int}

def Gives (d : Draft) (k : Kind) (source : Int) : Prop :=
  k.field ∈ d.fields ∧ d.mem.stream k = some source

/-- The draft gives no source. -/
def Silent (d : Draft) : Prop := ∀ k, k.field ∈ d.fields → d.mem.stream k = none

theorem Silent.not_gives (silent : d.Silent) : ¬ d.Gives k source := by
  rintro ⟨listed, given⟩
  rw [silent k listed] at given
  cases given

theorem silent_start (p : GroupCallParticipant) : (Draft.mk p []).Silent :=
  fun _ listed => absurd listed List.not_mem_nil

theorem Silent.write {change : GroupCallParticipant → GroupCallParticipant} {fields : List Field}
    (silent : d.Silent)
    (each : ∀ k, (change d.mem).stream k = none ∨
      k.field ∉ fields ∧ (change d.mem).stream k = d.mem.stream k) :
    (d.write change fields).Silent := by
  intro k listed
  rcases each k with gone | ⟨absent, same⟩
  · exact gone
  · exact same.trans (silent k ((List.mem_append.mp listed).resolve_right absent))

theorem Silent.plain (silent : d.Silent) (change : GroupCallParticipant → GroupCallParticipant)
    (fields : List Field) (same : ∀ k, (change d.mem).stream k = d.mem.stream k)
    (absent : ∀ k : Kind, k.field ∉ fields) : (d.write change fields).Silent :=
  silent.write fun k => .inr ⟨absent k, same k⟩

theorem Silent.option {α : Type} {f : Draft → α → Draft} (each : ∀ d a, Silent d → Silent (f d a))
    (silent : d.Silent) (arg : Option α) : (d.option f arg).Silent := by
  cases arg with
  | none => exact silent
  | some a => exact each d a silent

theorem Silent.leave (silent : d.Silent) : d.leave.Silent := by
  refine silent.write fun k => ?_
  cases k with
  | audio => exact .inr ⟨by decide, rfl⟩
  | video => exact .inl rfl
  | presentation => exact .inl rfl

theorem Silent.stopVideo (silent : d.Silent) : d.stopVideo.Silent := by
  refine silent.write fun k => ?_
  cases k with
  | audio => exact .inr ⟨by decide, rfl⟩
  | video => exact .inl rfl
  | presentation => exact .inr ⟨by decide, rfl⟩

theorem Silent.stopPresentation (silent : d.Silent) : d.stopPresentation.Silent := by
  refine silent.write fun k => ?_
  cases k with
  | audio => exact .inr ⟨by decide, rfl⟩
  | video => exact .inr ⟨by decide, rfl⟩
  | presentation => exact .inl rfl

theorem Silent.normalize (silent : d.Silent) : d.normalizeAdminMuteDbState.Silent := by
  unfold normalizeAdminMuteDbState
  split
  · exact silent
  · exact silent.plain _ _ (fun k => by cases k <;> rfl) (fun k => by cases k <;> decide)

theorem Silent.editVolume (silent : d.Silent) (volume : Int) : (d.editVolume volume).Silent := by
  unfold Draft.editVolume
  split
  · exact silent.plain _ _ (fun k => by cases k <;> rfl) (fun k => by cases k <;> decide)
  · have loud := silent.plain (fun p => { p with
      volume
      volumeByAdmin := decide (volume ≠ defaultGroupCallVolume) }) [.volume, .volumeByAdmin]
      (fun k => by cases k <;> rfl) (fun k => by cases k <;> decide)
    dsimp only
    split
    · exact loud.plain _ _ (fun k => by cases k <;> rfl) (fun k => by cases k <;> decide)
    · exact loud

theorem Silent.editMuted (silent : d.Silent) (editingSelf muted : Bool) :
    (d.editMuted editingSelf muted).Silent := by
  unfold Draft.editMuted
  split
  · exact silent
  · split
    · split <;>
        exact silent.plain _ _ (fun k => by cases k <;> rfl) (fun k => by cases k <;> decide)
    · split <;>
        exact silent.plain _ _ (fun k => by cases k <;> rfl) (fun k => by cases k <;> decide)

theorem Silent.editRaiseHand (silent : d.Silent) (editingSelf raiseHand : Bool) (now : Int) :
    (d.editRaiseHand editingSelf raiseHand now).Silent := by
  unfold Draft.editRaiseHand
  split
  · exact silent
  · split <;>
      exact silent.plain _ _ (fun k => by cases k <;> rfl) (fun k => by cases k <;> decide)

theorem Silent.editVideoStopped (silent : d.Silent) (videoStopped : Bool) :
    (d.editVideoStopped videoStopped).Silent := by
  unfold Draft.editVideoStopped
  split
  · exact silent.stopVideo
  · exact silent.plain _ _ (fun k => by cases k <;> rfl) (fun k => by cases k <;> decide)

theorem Silent.editVideoPaused (silent : d.Silent) (videoPaused : Bool) :
    (d.editVideoPaused videoPaused).Silent :=
  silent.plain _ _ (fun k => by cases k <;> rfl) (fun k => by cases k <;> decide)

theorem Silent.editPresentationPaused (silent : d.Silent) (presentationPaused : Bool) :
    (d.editPresentationPaused presentationPaused).Silent :=
  silent.plain _ _ (fun k => by cases k <;> rfl) (fun k => by cases k <;> decide)

theorem Silent.edit (silent : d.Silent) (editingSelf : Bool) (e : Edit) :
    (d.edit editingSelf e).Silent :=
  have volume := silent.option (fun _ volume silent => silent.editVolume volume) e.volume
  have muted := volume.option (fun _ muted silent => silent.editMuted editingSelf muted) e.muted
  have raised := muted.option (fun _ hand silent => silent.editRaiseHand editingSelf hand e.now)
    e.raiseHand
  have stopped := raised.option (fun _ stop silent => silent.editVideoStopped stop) e.videoStopped
  have paused := stopped.option (fun _ pause silent => silent.editVideoPaused pause) e.videoPaused
  (paused.option (fun _ pause silent => silent.editPresentationPaused pause)
    e.presentationPaused).normalize

theorem gives_startVideo {endpoint : String} {groups : SourceGroups} {given : Int}
    (gives : ((Draft.mk p []).startVideo source endpoint groups).Gives k given) :
    k = .video ∧ given = source := by
  obtain ⟨listed, here⟩ := gives
  cases k with
  | audio => simp [startVideo, write, Kind.field] at listed
  | video => exact ⟨rfl, (Option.some.inj here).symm⟩
  | presentation => simp [startVideo, write, Kind.field] at listed

theorem gives_startPresentation {endpoint : String} {groups : SourceGroups} {given : Int}
    (gives : ((Draft.mk p []).startPresentation source endpoint groups).Gives k given) :
    k = .presentation ∧ given = source := by
  obtain ⟨listed, here⟩ := gives
  cases k with
  | audio => simp [startPresentation, write, Kind.field] at listed
  | video => simp [startPresentation, write, Kind.field] at listed
  | presentation => exact ⟨rfl, (Option.some.inj here).symm⟩

theorem gives_rejoin {muted videoStopped : Bool} {joinAs : Option Nat × Option Nat} {given : Int}
    (gives : ((Draft.mk p []).rejoin muted videoStopped joinAs source).Gives k given) :
    k = .audio ∧ given = source := by
  have back : ((Draft.mk p []).write (fun p => { p with left := false }) [.left]).Silent :=
    (silent_start p).plain _ _ (fun k => by cases k <;> rfl) (fun k => by cases k <;> decide)
  have seated := back.normalize.plain (fun p => { p with
      muted := if p.mutedByAdmin || p.isAdminVolumeSilent then true else muted
      videoStopped
      joinAsUserId := joinAs.1
      joinAsChannelId := joinAs.2 }) [.muted, .videoStopped, .joinAsUserId, .joinAsChannelId]
    (fun k => by cases k <;> rfl) (fun k => by cases k <;> decide)
  unfold rejoin at gives
  dsimp only at gives
  split at gives
  · exact absurd gives seated.not_gives
  · obtain ⟨listed, here⟩ := gives
    cases k with
    | audio => exact ⟨rfl, (Option.some.inj here).symm⟩
    | video =>
      have before := (List.mem_append.mp listed).resolve_right (by decide)
      exact absurd ((seated .video before).symm.trans here) (by simp)
    | presentation =>
      have before := (List.mem_append.mp listed).resolve_right (by decide)
      exact absurd ((seated .presentation before).symm.trans here) (by simp)

end Draft

end Piltover.GroupCalls
