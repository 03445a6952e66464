/- source: piltover/app/utils/group_calls.py, piltover/db/models/group_call_participant.py
   digest: Who has been muted by an admin stays muted until an admin ends it. -/

import Piltover.Foundation.Runs
import Piltover.GroupCalls.Editing

set_option autoImplicit false

namespace Piltover.GroupCalls

open Piltover.Foundation
open Piltover.Foundation.Runs

/-- The edit mutes: `muted` is the last argument to say so, or else the volume is silent. -/
def Edit.mutes (e : Edit) : Bool :=
  e.muted.elim (e.volume.any fun volume => decide (volume ≤ adminVolumeMuteThreshold)) id

def Edit.releases (e : Edit) : Bool :=
  e.muted.elim (e.volume.any fun volume => decide (adminVolumeMuteThreshold < volume)) (!·)

def Event.EditsOther (db : Db) (e : Event) (p : Nat) (edit : Edit) : Prop :=
  e.request = .edit edit ∧ ∃ call row, db.prepareEdit e.userId e.callId edit = .ok (call, row) ∧
    row.id = p ∧ row.userId ≠ e.userId

def Event.Mutes (db : Db) (e : Event) (p : Nat) : Prop :=
  ∃ edit, e.EditsOther db p edit ∧ edit.mutes = true

def Event.Releases (db : Db) (e : Event) (p : Nat) : Prop :=
  ∃ edit, e.EditsOther db p edit ∧ edit.releases = true

/-- The participant is muted by an admin, and nothing is heard of them. -/
def Silenced (p : Nat) (db : Db) : Prop :=
  ∃ row, db.participants.table.get p = some row ∧ row.muted = true ∧ row.mutedByAdmin = true ∧
    row.shouldPauseSfuAudio = true

/-- Nobody is muted by an admin and not muted. -/
def Tame (db : Db) : Prop :=
  ∀ row ∈ db.participants.table, row.mutedByAdmin = true → row.muted = true

/-- All sources in the groups of the participants can be read. -/
def Legible (db : Db) : Prop :=
  ∀ row ∈ db.participants.table, ∀ g ∈ row.groups, g.readable = true

def Request.payload : Request → SourceGroups
  | .video _ payload _ => payload
  | .presentation _ payload => payload
  | _ => []

def Event.Legible (e : Event) : Prop := ∀ g ∈ e.request.payload, g.readable = true

/-- Who is there and not muted by an admin can unmute themself. -/
def CanSelfUnmute (env : Env) (db : Db) : Prop :=
  ∀ call ∈ db.calls, ∀ row ∈ db.participants.table, row.groupCallId = call.id →
    call.discardedAt = none → row.left = false → row.isAdminMuted = false →
    ∀ edit : Edit, edit.target = .self → edit.muted = some false → edit.volume = none →
      ∃ p, (Event.run env db ⟨row.userId, call.id, .edit edit⟩).2 = .ok (some p) ∧ p.id = row.id ∧
        p.muted = false ∧ p.shouldPauseSfuAudio = false

/-- The streams of those present who are not muted by an admin can be formatted. -/
def Formats (db : Db) : Prop :=
  ∀ call ∈ db.calls, ∀ row ∈ db.participants.table, row.groupCallId = call.id →
    call.discardedAt = none → row.left = false → row.isAdminMuted = false →
    row.formatMuteDebug = .ok ()

/-- The row in the database is the one in memory. -/
def Written (env : Env) (db : Db) (e : Event) (db' : Db) : Prop :=
  ∀ p, (e.run env db).2 = .ok (some p) → db'.participants.table.get p.id = some p

/-! ### What the drafts change -/

section Drafts

variable {d : Draft} {row : GroupCallParticipant}

/-- The drafts agree in whether the participant is muted, and in the source. -/
structure Draft.KeepsMute (d d' : Draft) : Prop where
  muted : d'.mem.muted = d.mem.muted
  mutedByAdmin : d'.mem.mutedByAdmin = d.mem.mutedByAdmin
  volume : d'.mem.volume = d.mem.volume
  volumeByAdmin : d'.mem.volumeByAdmin = d.mem.volumeByAdmin

theorem Draft.KeepsMute.refl (d : Draft) : d.KeepsMute d := ⟨rfl, rfl, rfl, rfl⟩

theorem Draft.KeepsMute.trans {d' d'' : Draft} (first : d.KeepsMute d')
    (second : d'.KeepsMute d'') : d.KeepsMute d'' :=
  ⟨second.muted.trans first.muted, second.mutedByAdmin.trans first.mutedByAdmin,
    second.volume.trans first.volume, second.volumeByAdmin.trans first.volumeByAdmin⟩

namespace Draft

/-- A stage of an edit: it lists what it changes, and leaves the source. -/
structure Stage (d d' : Draft) : Prop where
  covers : ∀ row, d.Covers row → d'.Covers row
  source : d'.mem.source = d.mem.source
  groups : ∀ g ∈ d'.mem.groups, g ∈ d.mem.groups

theorem Stage.refl (d : Draft) : d.Stage d := ⟨fun _ covers => covers, rfl, fun _ here => here⟩

theorem Stage.trans {d d' d'' : Draft} (first : d.Stage d') (second : d'.Stage d'') :
    d.Stage d'' :=
  ⟨fun row covers => second.covers row (first.covers row covers), second.source.trans first.source,
    fun g here => first.groups g (second.groups g here)⟩

theorem Stage.write {change : GroupCallParticipant → GroupCallParticipant} {fields : List Field}
    (id : (change d.mem).id = d.mem.id)
    (groupCallId : (change d.mem).groupCallId = d.mem.groupCallId)
    (userId : (change d.mem).userId = d.mem.userId)
    (rest : ∀ f, f ∉ fields → SameAt (change d.mem) d.mem f)
    (source : (change d.mem).source = d.mem.source)
    (groups : ∀ g ∈ (change d.mem).groups, g ∈ d.mem.groups) : d.Stage (d.write change fields) :=
  ⟨fun _ covers => covers.write id groupCallId userId rest, source, groups⟩

theorem Stage.option {α : Type} {f : Draft → α → Draft} (each : ∀ d a, Stage d (f d a))
    (d : Draft) (arg : Option α) : d.Stage (d.option f arg) := by
  cases arg with
  | none => exact Stage.refl d
  | some a => exact each d a

theorem stage_normalize (d : Draft) : d.Stage d.normalizeAdminMuteDbState := by
  refine ⟨fun row covers => covers.normalize, ?_, ?_⟩
  · unfold normalizeAdminMuteDbState
    split <;> rfl
  · unfold normalizeAdminMuteDbState
    split <;> exact fun _ here => here

theorem stage_leave (d : Draft) : d.Stage d.leave :=
  Stage.write rfl rfl rfl (fun f absent => by cases f <;> first | rfl | simp at absent) rfl
    fun _ none => absurd none List.not_mem_nil

theorem stage_stopVideo (d : Draft) : d.Stage d.stopVideo :=
  Stage.write rfl rfl rfl (fun f absent => by cases f <;> first | rfl | simp at absent) rfl
    fun _ => List.mem_append_right _

theorem covers_startVideo (covers : d.Covers row) (source : Int) (endpoint : String)
    (groups : SourceGroups) : (d.startVideo source endpoint groups).Covers row :=
  covers.write rfl rfl rfl fun f absent => by cases f <;> first | rfl | simp at absent

theorem covers_startPresentation (covers : d.Covers row) (source : Int) (endpoint : String)
    (groups : SourceGroups) : (d.startPresentation source endpoint groups).Covers row :=
  covers.write rfl rfl rfl fun f absent => by cases f <;> first | rfl | simp at absent

theorem stage_stopPresentation (d : Draft) : d.Stage d.stopPresentation :=
  Stage.write rfl rfl rfl (fun f absent => by cases f <;> first | rfl | simp at absent) rfl
    fun _ here => List.mem_append_left _ (by simpa [GroupCallParticipant.groups] using here)

theorem stage_adminMute (d : Draft) : d.Stage d.adminMute :=
  Stage.write rfl rfl rfl (fun f absent => by cases f <;> first | rfl | simp at absent) rfl
    fun _ here => here

theorem stage_editVolume (d : Draft) (volume : Int) : d.Stage (d.editVolume volume) := by
  unfold editVolume
  split
  · exact stage_adminMute d
  · have first : d.Stage (d.write (fun p => { p with
        volume
        volumeByAdmin := decide (volume ≠ defaultGroupCallVolume) }) [.volume, .volumeByAdmin]) :=
      Stage.write rfl rfl rfl (fun f absent => by cases f <;> first | rfl | simp at absent) rfl
          fun _ here => here
    dsimp only
    split
    · exact first.trans
        (Stage.write rfl rfl rfl (fun f absent => by cases f <;> first | rfl | simp at absent) rfl
          fun _ here => here)
    · exact first

theorem stage_editMuted (d : Draft) (editingSelf muted : Bool) :
    d.Stage (d.editMuted editingSelf muted) := by
  unfold editMuted
  split
  · exact Stage.refl d
  · split
    · split <;>
        exact Stage.write rfl rfl rfl
          (fun f absent => by cases f <;> first | rfl | simp at absent) rfl
          fun _ here => here
    · split
      · exact stage_adminMute d
      · exact Stage.write rfl rfl rfl
          (fun f absent => by cases f <;> first | rfl | simp at absent) rfl
          fun _ here => here

theorem stage_editRaiseHand (d : Draft) (editingSelf raiseHand : Bool) (now : Int) :
    d.Stage (d.editRaiseHand editingSelf raiseHand now) := by
  unfold editRaiseHand
  split
  · exact Stage.refl d
  · split <;>
      exact Stage.write rfl rfl rfl
        (fun f absent => by cases f <;> first | rfl | simp at absent) rfl
          fun _ here => here

theorem stage_editVideoStopped (d : Draft) (videoStopped : Bool) :
    d.Stage (d.editVideoStopped videoStopped) := by
  unfold editVideoStopped
  split
  · exact stage_stopVideo d
  · exact Stage.write rfl rfl rfl
      (fun f absent => by cases f <;> first | rfl | simp at absent) rfl
          fun _ here => here

theorem stage_editVideoPaused (d : Draft) (videoPaused : Bool) :
    d.Stage (d.editVideoPaused videoPaused) :=
  Stage.write rfl rfl rfl (fun f absent => by cases f <;> first | rfl | simp at absent) rfl
          fun _ here => here

theorem stage_editPresentationPaused (d : Draft) (presentationPaused : Bool) :
    d.Stage (d.editPresentationPaused presentationPaused) :=
  Stage.write rfl rfl rfl (fun f absent => by cases f <;> first | rfl | simp at absent) rfl
          fun _ here => here

theorem stage_edit (d : Draft) (editingSelf : Bool) (e : Edit) : d.Stage (d.edit editingSelf e) :=
  (Stage.option stage_editVolume d e.volume).trans <|
    (Stage.option (fun d muted => stage_editMuted d editingSelf muted) _ e.muted).trans <|
    (Stage.option (fun d raiseHand => stage_editRaiseHand d editingSelf raiseHand e.now) _
      e.raiseHand).trans <|
    (Stage.option stage_editVideoStopped _ e.videoStopped).trans <|
    (Stage.option stage_editVideoPaused _ e.videoPaused).trans <|
    (Stage.option stage_editPresentationPaused _ e.presentationPaused).trans <| stage_normalize _

theorem covers_rejoin (covers : d.Covers row) (muted videoStopped : Bool)
    (joinAs : Option Nat × Option Nat) (source : Int) :
    (d.rejoin muted videoStopped joinAs source).Covers row := by
  have back : (d.write (fun p => { p with left := false }) [.left]).Covers row :=
    covers.write rfl rfl rfl fun f absent => by cases f <;> first | rfl | simp at absent
  have seated : ∀ d' : Draft, d'.Covers row → (d'.write (fun p => { p with
      muted := if p.mutedByAdmin || p.isAdminVolumeSilent then true else muted
      videoStopped
      joinAsUserId := joinAs.1
      joinAsChannelId := joinAs.2 }) [.muted, .videoStopped, .joinAsUserId,
        .joinAsChannelId]).Covers row := by
    intro d' covers
    exact covers.write rfl rfl rfl fun f absent => by cases f <;> first | rfl | simp at absent
  unfold rejoin
  dsimp only
  split
  · exact seated _ back.normalize
  · exact (seated _ back.normalize).write rfl rfl rfl
      fun f absent => by cases f <;> first | rfl | simp at absent

theorem groups_rejoin (d : Draft) (muted videoStopped : Bool) (joinAs : Option Nat × Option Nat)
    (source : Int) : ∀ g ∈ (d.rejoin muted videoStopped joinAs source).mem.groups, g ∈ d.mem.groups := by
  unfold rejoin
  dsimp only
  split <;> exact (stage_normalize _).groups

/-! ### Whether the drafts mute -/

/-- Muted by an admin. -/
def Held (d : Draft) : Prop := d.mem.muted = true ∧ d.mem.mutedByAdmin = true

def Even (d : Draft) : Prop := d.mem.mutedByAdmin = true → d.mem.muted = true

theorem KeepsMute.held {d' : Draft} (keeps : d.KeepsMute d') (held : d.Held) : d'.Held :=
  ⟨keeps.muted.trans held.1, keeps.mutedByAdmin.trans held.2⟩

theorem KeepsMute.even {d' : Draft} (keeps : d.KeepsMute d') (even : d.Even) : d'.Even := by
  intro by'
  rw [keeps.muted]
  exact even (keeps.mutedByAdmin.symm.trans by')

theorem KeepsMute.option {α : Type} {f : Draft → α → Draft} (each : ∀ d a, KeepsMute d (f d a))
    (d : Draft) (arg : Option α) : d.KeepsMute (d.option f arg) := by
  cases arg with
  | none => exact KeepsMute.refl d
  | some a => exact each d a

theorem keepsMute_editRaiseHand (d : Draft) (editingSelf raiseHand : Bool) (now : Int) :
    d.KeepsMute (d.editRaiseHand editingSelf raiseHand now) := by
  unfold editRaiseHand
  split
  · exact KeepsMute.refl d
  · split <;> exact ⟨rfl, rfl, rfl, rfl⟩

theorem keepsMute_editVideoStopped (d : Draft) (videoStopped : Bool) :
    d.KeepsMute (d.editVideoStopped videoStopped) := by
  unfold editVideoStopped
  split <;> exact ⟨rfl, rfl, rfl, rfl⟩

theorem keepsMute_editVideoPaused (d : Draft) (videoPaused : Bool) :
    d.KeepsMute (d.editVideoPaused videoPaused) := ⟨rfl, rfl, rfl, rfl⟩

theorem keepsMute_editPresentationPaused (d : Draft) (presentationPaused : Bool) :
    d.KeepsMute (d.editPresentationPaused presentationPaused) := ⟨rfl, rfl, rfl, rfl⟩

theorem KeepsMute.silent {d' : Draft} (keeps : d.KeepsMute d') :
    d'.mem.isAdminVolumeSilent = d.mem.isAdminVolumeSilent := by
  rw [GroupCallParticipant.isAdminVolumeSilent, keeps.volume, keeps.volumeByAdmin]
  rfl

/-- The arguments behind `muted` leave it. -/
def editRest (d : Draft) (editingSelf : Bool) (e : Edit) : Draft :=
  let d := d.option (fun d raiseHand => d.editRaiseHand editingSelf raiseHand e.now) e.raiseHand
  let d := d.option editVideoStopped e.videoStopped
  let d := d.option editVideoPaused e.videoPaused
  d.option editPresentationPaused e.presentationPaused

theorem keepsMute_editRest (d : Draft) (editingSelf : Bool) (e : Edit) :
    d.KeepsMute (d.editRest editingSelf e) :=
  (KeepsMute.option (fun d raiseHand => keepsMute_editRaiseHand d editingSelf raiseHand e.now) d
    e.raiseHand).trans <|
    (KeepsMute.option keepsMute_editVideoStopped _ e.videoStopped).trans <|
    (KeepsMute.option keepsMute_editVideoPaused _ e.videoPaused).trans <|
    KeepsMute.option keepsMute_editPresentationPaused _ e.presentationPaused

theorem edit_eq (d : Draft) (editingSelf : Bool) (e : Edit) : d.edit editingSelf e =
    (((d.option editVolume e.volume).option (fun d muted => d.editMuted editingSelf muted)
      e.muted).editRest editingSelf e).normalizeAdminMuteDbState := rfl

theorem held_normalize (held : d.Held) : d.normalizeAdminMuteDbState.Held := by
  unfold normalizeAdminMuteDbState
  split
  · exact held
  · exact ⟨rfl, rfl⟩

theorem even_normalize (even : d.Even) : d.normalizeAdminMuteDbState.Even := by
  unfold normalizeAdminMuteDbState
  split
  · exact even
  · exact fun _ => rfl

theorem even_editVolume (even : d.Even) (volume : Int) : (d.editVolume volume).Even := by
  unfold editVolume
  split
  · exact fun _ => rfl
  · dsimp only
    split
    · exact fun by' => (by cases by')
    · exact even

theorem even_editMuted (even : d.Even) (editingSelf muted : Bool) :
    (d.editMuted editingSelf muted).Even := by
  unfold editMuted
  split
  · exact even
  · split
    · split
      · exact fun _ => rfl
      · exact fun by' => (by cases by')
    · split
      · exact fun _ => rfl
      · exact fun by' => (by cases by')

theorem even_option {α : Type} {f : Draft → α → Draft} (each : ∀ d a, Even d → Even (f d a))
    (even : d.Even) (arg : Option α) : (d.option f arg).Even := by
  cases arg with
  | none => exact even
  | some a => exact each d a even

theorem even_edit (even : d.Even) (editingSelf : Bool) (e : Edit) : (d.edit editingSelf e).Even := by
  rw [edit_eq]
  refine even_normalize ((keepsMute_editRest _ editingSelf e).even ?_)
  exact even_option (fun _ muted even => even_editMuted even editingSelf muted)
    (even_option (fun _ volume even => even_editVolume even volume) even e.volume) e.muted

theorem held_edit_of_mutes (d : Draft) {e : Edit} (mutes : e.mutes = true) :
    (d.edit false e).Held := by
  rw [edit_eq]
  refine held_normalize ((keepsMute_editRest _ false e).held ?_)
  unfold Edit.mutes at mutes
  cases muted : e.muted with
  | some m =>
    rw [muted] at mutes
    obtain rfl : m = true := mutes
    exact ⟨rfl, rfl⟩
  | none =>
    rw [muted] at mutes
    obtain ⟨volume, given, silent⟩ := (Option.any_eq_true _ _).mp mutes
    show (d.option editVolume e.volume).Held
    rw [given]
    show (d.editVolume volume).Held
    rw [editVolume, if_pos (of_decide_eq_true silent)]
    exact ⟨rfl, rfl⟩

theorem held_edit_other (held : d.Held) {e : Edit} (kept : e.releases = false) :
    (d.edit false e).Held := by
  rw [edit_eq]
  refine held_normalize ((keepsMute_editRest _ false e).held ?_)
  unfold Edit.releases at kept
  cases muted : e.muted with
  | some m =>
    rw [muted] at kept
    obtain rfl : m = true := by simpa using kept
    exact ⟨rfl, rfl⟩
  | none =>
    rw [muted] at kept
    show (d.option editVolume e.volume).Held
    cases given : e.volume with
    | none => exact held
    | some volume =>
      rw [given] at kept
      have silent : volume ≤ adminVolumeMuteThreshold := by simpa using kept
      show (d.editVolume volume).Held
      rw [editVolume, if_pos silent]
      exact ⟨rfl, rfl⟩

theorem held_edit_self (held : d.Held) {e : Edit} (quiet : e.volume = none) :
    (d.edit true e).Held := by
  rw [edit_eq, quiet]
  refine held_normalize ((keepsMute_editRest _ true e).held ?_)
  show (d.option (fun d muted => d.editMuted true muted) e.muted).Held
  cases e.muted with
  | none => exact held
  | some muted =>
    show (d.editMuted true muted).Held
    cases muted with
    | true =>
      rw [editMuted, if_neg (by simp), if_pos rfl, if_pos rfl]
      exact ⟨rfl, held.2⟩
    | false =>
      have stuck : d.mem.canSelfUnmute = false := by
        rw [GroupCallParticipant.canSelfUnmute, GroupCallParticipant.isAdminMuted, held.2]
        rfl
      rw [editMuted, stuck, if_pos (by simp)]
      exact held

theorem edit_unmutes {e : Edit} (free : d.mem.isAdminMuted = false) (quiet : e.volume = none)
    (unmutes : e.muted = some false) : (d.edit true e).mem.muted = false ∧
      (d.edit true e).mem.shouldPauseSfuAudio = false := by
  obtain ⟨unheld, loud⟩ := Bool.or_eq_false_iff.mp free
  have can : d.mem.canSelfUnmute = true := by
    rw [GroupCallParticipant.canSelfUnmute, free]
    rfl
  have asked : d.editMuted true false =
      d.write (fun p => { p with muted := false, mutedByAdmin := false })
        [.muted, .mutedByAdmin] := by
    rw [editMuted, can]
    rfl
  have keeps := keepsMute_editRest (d.editMuted true false) true e
  have loud' : ((d.editMuted true false).editRest true e).mem.isAdminVolumeSilent = false := by
    rw [keeps.silent, asked]
    exact loud
  have result : d.edit true e = (d.editMuted true false).editRest true e := by
    rw [edit_eq, quiet, unmutes]
    show ((d.editMuted true false).editRest true e).normalizeAdminMuteDbState = _
    rw [normalizeAdminMuteDbState, loud']
    rfl
  have muted : ((d.editMuted true false).editRest true e).mem.muted = false := by
    rw [keeps.muted, asked]
    rfl
  have released : ((d.editMuted true false).editRest true e).mem.mutedByAdmin = false := by
    rw [keeps.mutedByAdmin, asked]
    rfl
  rw [result, GroupCallParticipant.shouldPauseSfuAudio, GroupCallParticipant.isAdminMuted, muted,
    released, loud']
  exact ⟨rfl, rfl⟩

theorem held_rejoin (held : d.Held) (muted videoStopped : Bool) (joinAs : Option Nat × Option Nat)
    (source : Int) : (d.rejoin muted videoStopped joinAs source).Held := by
  have back : (d.write (fun p => { p with left := false }) [.left]).Held := held
  have normal := held_normalize back
  unfold rejoin
  dsimp only
  split <;> exact ⟨if_pos (by rw [normal.2]; rfl), normal.2⟩

theorem even_rejoin (d : Draft) (muted videoStopped : Bool) (joinAs : Option Nat × Option Nat)
    (source : Int) : (d.rejoin muted videoStopped joinAs source).Even := by
  unfold rejoin
  dsimp only
  split
  · exact fun by' => if_pos (Bool.or_eq_true_iff.mpr (.inl by'))
  · exact fun by' => if_pos (Bool.or_eq_true_iff.mpr (.inl by'))

end Draft

end Drafts

/-! ### What a request does -/

inductive Event.Drafts (db : Db) (e : Event) (row : GroupCallParticipant) : Draft → Prop
  | stream {d : Draft} (keeps : (Draft.mk row []).KeepsMute d)
      (groups : ∀ g ∈ d.mem.groups,
        g ∈ row.groups ∨ g ∈ e.request.payload ∨ g.readable = true) : Drafts db e row d
  | rejoin (muted videoStopped : Bool) (joinAs : Option Nat × Option Nat) (source : Int) :
      Drafts db e row ((Draft.mk row []).rejoin muted videoStopped joinAs source)
  | edit {call : GroupCall} {edit : Edit} (asked : e.request = .edit edit)
      (allowed : db.prepareEdit e.userId e.callId edit = .ok (call, row)) :
      Drafts db e row ((Draft.mk row []).edit (row.userId == e.userId) edit)

inductive Outcome (db : Db) (e : Event) (db' : Db) :
    Except Failure (Option GroupCallParticipant) → Prop
  | refused {failure : Failure} (same : db'.participants = db.participants) :
      Outcome db e db' (.error failure)
  | nobody (same : db'.participants = db.participants) : Outcome db e db' (.ok none)
  | unchanged {call : GroupCall} {row : GroupCallParticipant} {edit : Edit}
      (same : db'.participants = db.participants) (here : row ∈ db.participants.table)
      (asked : e.request = .edit edit)
      (allowed : db.prepareEdit e.userId e.callId edit = .ok (call, row))
      (plain : ((Draft.mk row []).edit (row.userId == e.userId) edit).mem = row) :
      Outcome db e db' (.ok (some row))
  | created {p : GroupCallParticipant} (free : p.mutedByAdmin = false) (bare : p.groups = [])
      (named : p.id = db.participants.table.nextKey)
      (made : db.participants.create p = some db'.participants) : Outcome db e db' (.ok (some p))
  | saved {row : GroupCallParticipant} {d : Draft} (here : row ∈ db.participants.table)
      (covers : d.Covers row) (drafts : e.Drafts db row d)
      (saved : db.participants.save d.mem d.fields = some db'.participants) :
      Outcome db e db' (.ok (some d.mem))

section Outcomes

variable {env : Env} {db db' : Db} {e : Event} {call : GroupCall} {row : GroupCallParticipant}
  {d : Draft}

theorem participants_allocate (db : Db) (call : GroupCall) (allocated : Bool) :
    (db.allocate call allocated).participants = db.participants := by
  unfold Db.allocate
  split <;> rfl

theorem outcome_saveDraft (same : db'.participants = db.participants)
    (here : row ∈ db.participants.table) (covers : d.Covers row) (drafts : e.Drafts db row d) :
    Outcome db e (db'.saveDraft call d).1 ((db'.saveDraft call d).2.map some) := by
  unfold Db.saveDraft
  rw [same]
  cases saved : db.participants.save d.mem d.fields with
  | none => exact .refused same
  | some participants => exact .saved here covers drafts saved

theorem mem_of_active {callId userId : Nat}
    (found : ((db.participants.of callId userId).filter fun p => !p.left) = some row) :
    row ∈ db.participants.table :=
  (Participants.of_eq_some (Option.filter_eq_some_iff.mp found).1).1

theorem prepareStream_eq_ok {userId callId : Nat}
    (ok : db.prepareStream userId callId = .ok (call, row)) : row ∈ db.participants.table := by
  obtain ⟨call', -, rest⟩ := (bind_eq_ok _).mp ok
  obtain ⟨p, found, rest⟩ := orRaise_bind_eq_ok.mp rest
  cases rest
  exact mem_of_active found

theorem resolveParticipant_eq_ok {editor : Nat} {target : Target}
    (ok : db.resolveParticipant call editor target = .ok row) : row ∈ db.participants.table := by
  cases target with
  | self => exact mem_of_active (orRaise_eq_ok.mp ok)
  | user userId => exact mem_of_active (orRaise_eq_ok.mp ok)
  | channel channelId =>
    unfold Db.resolveParticipant at ok
    dsimp only at ok
    split at ok
    · cases ok
    · rename_i p only
      cases ok
      have listed : row ∈ (db.participants.inCall call.id).filter fun p =>
          p.joinAsChannelId == some channelId && !p.left := only ▸ List.mem_cons_self
      exact Table.mem_def.mpr (List.mem_filter.mp (List.mem_filter.mp listed).1).1
    · cases ok
  | unknown => cases ok

theorem prepareEdit_eq_ok {editor callId : Nat} {edit : Edit}
    (ok : db.prepareEdit editor callId edit = .ok (call, row)) :
    row ∈ db.participants.table ∧ (row.userId = editor ∨ edit.manages = true) ∧
      (row.userId = editor → edit.volume = none) := by
  obtain ⟨call', -, rest⟩ := (bind_eq_ok _).mp ok
  obtain ⟨p, found, rest⟩ := (bind_eq_ok _).mp rest
  obtain ⟨-, rest⟩ := check_bind_eq_ok.mp rest
  obtain ⟨allowed, rest⟩ := check_bind_eq_ok.mp rest
  obtain ⟨-, rest⟩ := check_bind_eq_ok.mp rest
  obtain ⟨quiet, rest⟩ := check_bind_eq_ok.mp rest
  cases rest
  refine ⟨resolveParticipant_eq_ok found, ?_, fun self => ?_⟩
  · simpa using require_eq_ok.mp allowed
  · simpa [self] using require_eq_ok.mp quiet

theorem outcome_startStream {ssrc : Ssrc} {excluded : List Int} {start : Draft → Int → Draft}
    (here : row ∈ db.participants.table)
    (covers : ∀ source, (start (Draft.mk row []) source).Covers row)
    (drafts : ∀ source, e.Drafts db row (start (Draft.mk row []) source)) :
    Outcome db e (db.startStream call row ssrc excluded start).1
      ((db.startStream call row ssrc excluded start).2.map some) := by
  unfold Db.startStream
  cases db.ensureUniqueSsrc call row.userId ssrc excluded with
  | error failure => exact .refused rfl
  | ok chosen =>
    exact outcome_saveDraft (participants_allocate db call chosen.2) here (covers chosen.1)
      (drafts chosen.1)

theorem outcome_join {r : Join} (db : Db) (e : Event) :
    Outcome db e (db.joinGroupCall e.userId e.callId r).1
      ((db.joinGroupCall e.userId e.callId r).2.map some) := by
  unfold Db.joinGroupCall
  cases db.prepareJoin e.userId e.callId r with
  | error failure => exact .refused rfl
  | ok prepared =>
    obtain ⟨call, joinAs, source, allocated⟩ := prepared
    have same := participants_allocate db call allocated
    dsimp only
    cases found : (db.allocate call allocated).participants.of call.id e.userId with
    | none =>
      dsimp only
      unfold Db.createParticipant
      dsimp only
      split
      · exact .refused same
      · rename_i participants made
        rw [same] at made
        exact .created rfl rfl (congrArg (fun ps => ps.table.nextKey) same) made
    | some p =>
      rw [same] at found
      dsimp only
      split
      · exact .refused same
      · exact outcome_saveDraft same (Participants.of_eq_some found).1
          (Draft.covers_rejoin (Draft.Covers.start p) _ _ _ _) (.rejoin _ _ _ _)

theorem outcome_edit {edit : Edit} (asked : e.request = .edit edit) :
    Outcome db e (db.editGroupCallParticipant e.userId e.callId edit).1
      ((db.editGroupCallParticipant e.userId e.callId edit).2.map fun result => some result.1) := by
  unfold Db.editGroupCallParticipant
  cases allowed : db.prepareEdit e.userId e.callId edit with
  | error failure => exact .refused rfl
  | ok prepared =>
    obtain ⟨call, row⟩ := prepared
    have here := (prepareEdit_eq_ok allowed).1
    have covers := (Draft.stage_edit ⟨row, []⟩ (row.userId == e.userId) edit).covers row
      (Draft.Covers.start row)
    dsimp only
    split
    · rename_i nothing
      have kept := covers.merge_eq
      rw [List.isEmpty_iff.mp nothing, merge_nil] at kept
      exact .unchanged rfl here asked allowed kept.symm
    · have saved : Outcome db e (db.saveDraft call _).1 ((db.saveDraft call _).2.map some) :=
        outcome_saveDraft rfl here covers (.edit asked allowed)
      cases ran : (db.saveDraft call ((Draft.mk row []).edit (row.userId == e.userId) edit)).2 <;>
        rw [ran] at saved <;> simpa [ran, Except.map] using saved

theorem outcome (env : Env) (db : Db) (e : Event) :
    Outcome db e (e.run env db).1 (e.run env db).2 := by
  obtain ⟨userId, callId, request⟩ := e
  cases request with
  | join r => exact outcome_join db _
  | leave =>
    show Outcome db _ (db.leaveGroupCall userId callId).1 (db.leaveGroupCall userId callId).2
    unfold Db.leaveGroupCall
    cases db.getFromInputRaise callId with
    | error failure => exact .refused rfl
    | ok call =>
      dsimp only
      split
      · exact .nobody rfl
      · rename_i p found
        exact outcome_saveDraft rfl (mem_of_active found)
          ((Draft.stage_leave _).covers p (Draft.Covers.start p))
          (.stream ⟨rfl, rfl, rfl, rfl⟩ fun g here => .inl ((Draft.stage_leave _).groups g here))
  | video ssrc payload videoStopped =>
    show Outcome db _ (db.joinGroupCallVideo env userId callId ssrc payload videoStopped).1
      ((db.joinGroupCallVideo env userId callId ssrc payload videoStopped).2.map some)
    unfold Db.joinGroupCallVideo
    cases prepared : db.prepareStream userId callId with
    | error failure => exact .refused rfl
    | ok active =>
      have here := prepareStream_eq_ok prepared
      dsimp only
      split
      · exact outcome_saveDraft rfl here
          ((Draft.stage_stopVideo _).covers _ (Draft.Covers.start _))
          (.stream ⟨rfl, rfl, rfl, rfl⟩
            fun g here => .inl ((Draft.stage_stopVideo _).groups g here))
      · refine outcome_startStream here
          (fun _ => Draft.covers_startVideo (Draft.Covers.start _) _ _ _)
          fun _ => .stream ⟨rfl, rfl, rfl, rfl⟩ fun g listed => ?_
        rcases List.mem_append.mp listed with new | old
        · exact .inr (mem_parseSourceGroups new)
        · exact .inl (List.mem_append_right _ old)
  | presentation ssrc payload =>
    show Outcome db _ (db.joinGroupCallPresentation env userId callId ssrc payload).1
      ((db.joinGroupCallPresentation env userId callId ssrc payload).2.map some)
    unfold Db.joinGroupCallPresentation
    cases prepared : db.prepareStream userId callId with
    | error failure => exact .refused rfl
    | ok active =>
      refine outcome_startStream (prepareStream_eq_ok prepared)
        (fun _ => Draft.covers_startPresentation (Draft.Covers.start _) _ _ _)
        fun _ => .stream ⟨rfl, rfl, rfl, rfl⟩ fun g listed => ?_
      rcases List.mem_append.mp listed with old | new
      · exact .inl (List.mem_append_left _ old)
      · exact .inr (mem_parseSourceGroups new)
  | leavePresentation =>
    show Outcome db _ (db.leaveGroupCallPresentation userId callId).1
      ((db.leaveGroupCallPresentation userId callId).2.map some)
    unfold Db.leaveGroupCallPresentation
    cases prepared : db.prepareStream userId callId with
    | error failure => exact .refused rfl
    | ok active =>
      exact outcome_saveDraft rfl (prepareStream_eq_ok prepared)
        ((Draft.stage_stopPresentation _).covers _ (Draft.Covers.start _))
        (.stream ⟨rfl, rfl, rfl, rfl⟩
          fun g here => .inl ((Draft.stage_stopPresentation _).groups g here))
  | edit edit => exact outcome_edit rfl

end Outcomes

/-! ### Rows after a request -/

section Rows

variable {env : Env} {db db' : Db} {e : Event} {p : GroupCallParticipant}
  {result : Except Failure (Option GroupCallParticipant)}

theorem Outcome.get_cases (outcome : Outcome db e db' result) {k : Nat}
    (got : db'.participants.table.get k = some p) :
    db.participants.table.get k = some p ∨ (p.mutedByAdmin = false ∧ p.groups = []) ∨
      ∃ row d, db.participants.table.get k = some row ∧ d.Covers row ∧ e.Drafts db row d ∧
        p = d.mem := by
  cases outcome with
  | refused same => exact .inl (same ▸ got)
  | nobody same => exact .inl (same ▸ got)
  | unchanged same => exact .inl (same ▸ got)
  | created free bare named made =>
    obtain ⟨fresh, table⟩ := Participants.create_eq_some made
    rw [table, Table.get_insert fresh] at got
    split at got
    · cases got
      exact .inr (.inl ⟨free, bare⟩)
    · exact .inl got
  | saved here covers drafts saved =>
    rw [Participants.get_save saved (Table.mem_iff_get.mp here) covers] at got
    split at got
    · rename_i same
      subst same
      cases got
      exact .inr (.inr ⟨_, _, Table.mem_iff_get.mp here, covers, drafts, rfl⟩)
    · exact .inl got

theorem Outcome.exists_get (outcome : Outcome db e db' result) {k : Nat} {row : GroupCallParticipant}
    (got : db.participants.table.get k = some row) :
    ∃ p, db'.participants.table.get k = some p ∧
      (p = row ∨ ∃ d, d.Covers row ∧ e.Drafts db row d ∧ p = d.mem) := by
  cases outcome with
  | refused same => exact ⟨row, same ▸ got, .inl rfl⟩
  | nobody same => exact ⟨row, same ▸ got, .inl rfl⟩
  | unchanged same => exact ⟨row, same ▸ got, .inl rfl⟩
  | created free bare named made =>
    obtain ⟨fresh, table⟩ := Participants.create_eq_some made
    refine ⟨row, ?_, .inl rfl⟩
    rw [table, Table.get_insert fresh, if_neg ?_]
    · exact got
    · rintro rfl
      rw [got] at fresh
      cases fresh
  | saved here covers drafts saved =>
    rw [Participants.get_save saved (Table.mem_iff_get.mp here) covers]
    split
    · rename_i same
      subst same
      cases got.symm.trans (Table.mem_iff_get.mp here)
      exact ⟨_, rfl, .inr ⟨_, covers, drafts, rfl⟩⟩
    · exact ⟨row, got, .inl rfl⟩

/-- What a request gives is in the database. -/
theorem Outcome.written (outcome : Outcome db e db' (.ok (some p))) :
    db'.participants.table.get p.id = some p := by
  cases outcome with
  | unchanged same here => exact same ▸ Table.mem_iff_get.mp here
  | created free bare named made =>
    obtain ⟨fresh, table⟩ := Participants.create_eq_some made
    rw [table, Table.get_insert fresh, if_pos named.symm, ← named]
  | saved here covers drafts saved =>
    rw [Participants.get_save saved (Table.mem_iff_get.mp here) covers, if_pos covers.id.symm]

theorem Event.Drafts.even {row : GroupCallParticipant} {d : Draft} (drafts : e.Drafts db row d)
    (tame : row.mutedByAdmin = true → row.muted = true) : d.Even := by
  have even : (Draft.mk row []).Even := tame
  cases drafts with
  | stream keeps => exact keeps.even even
  | rejoin muted videoStopped joinAs source => exact Draft.even_rejoin _ _ _ _ _
  | edit asked allowed => exact Draft.even_edit even _ _

theorem tame_run (env : Env) (e : Event) (tame : Tame db) : Tame (e.run env db).1 := by
  intro p here
  rcases (outcome env db e).get_cases (Table.mem_iff_get.mp here) with
    old | ⟨free, -⟩ | ⟨row, d, got, -, drafts, rfl⟩
  · exact tame p (Table.mem_iff_get.mpr ((Table.get_eq_some_iff.mp old).2 ▸ old))
  · intro by'
    rw [free] at by'
    cases by'
  · refine drafts.even (tame row ?_)
    exact (Table.get_eq_some_iff.mp got).1

theorem Event.Drafts.legible {row : GroupCallParticipant} {d : Draft} (drafts : e.Drafts db row d)
    (legible : ∀ g ∈ row.groups, g.readable = true) (sends : e.Legible) :
    ∀ g ∈ d.mem.groups, g.readable = true := by
  intro g here
  cases drafts with
  | stream keeps groups => exact (groups g here).elim (legible g) (Or.elim · (sends g) id)
  | rejoin muted videoStopped joinAs source => exact legible g (Draft.groups_rejoin _ _ _ _ _ g here)
  | edit asked allowed => exact legible g ((Draft.stage_edit _ _ _).groups g here)

theorem legible_run (env : Env) (legible : Legible db) (sends : e.Legible) :
    Legible (e.run env db).1 := by
  intro p here
  rcases (outcome env db e).get_cases (Table.mem_iff_get.mp here) with
    old | ⟨-, bare⟩ | ⟨row, d, got, -, drafts, rfl⟩
  · exact legible p (Table.mem_iff_get.mpr ((Table.get_eq_some_iff.mp old).2 ▸ old))
  · rw [bare]
    exact fun _ none => absurd none List.not_mem_nil
  · exact drafts.legible (legible row (Table.get_eq_some_iff.mp got).1) sends

theorem Event.Drafts.held {row : GroupCallParticipant} {d : Draft} (drafts : e.Drafts db row d)
    (held : (Draft.mk row []).Held) (kept : ¬ e.Releases db row.id) : d.Held := by
  cases drafts with
  | stream keeps => exact keeps.held held
  | rejoin muted videoStopped joinAs source => exact Draft.held_rejoin held _ _ _ _
  | edit asked allowed =>
    rename_i call edit
    by_cases self : row.userId = e.userId
    · rw [beq_iff_eq.mpr self]
      exact Draft.held_edit_self held ((prepareEdit_eq_ok allowed).2.2 self)
    · rw [beq_eq_false_iff_ne.mpr self]
      refine Draft.held_edit_other held (Bool.eq_false_iff.mpr fun releases => kept ?_)
      exact ⟨edit, ⟨asked, call, row, allowed, rfl, self⟩, releases⟩

theorem silenced_of_held {k : Nat} (got : db.participants.table.get k = some p)
    (held : p.muted = true ∧ p.mutedByAdmin = true) : Silenced k db :=
  ⟨p, got, held.1, held.2, by rw [GroupCallParticipant.shouldPauseSfuAudio, held.1]; rfl⟩

theorem silenced_run {k : Nat} (env : Env) (silenced : Silenced k db) (kept : ¬ e.Releases db k) :
    Silenced k (e.run env db).1 := by
  obtain ⟨row, got, muted, byAdmin, -⟩ := silenced
  obtain ⟨p, after, rfl | ⟨d, covers, drafts, rfl⟩⟩ := (outcome env db e).exists_get got
  · exact silenced_of_held after ⟨muted, byAdmin⟩
  · obtain rfl := (Table.get_eq_some_iff.mp got).2
    exact silenced_of_held after (drafts.held ⟨muted, byAdmin⟩ kept)

end Rows

/-! ### Edits that are allowed -/

section Edits

variable {env : Env} {db : Db} {call : GroupCall} {row : GroupCallParticipant} {editor callId : Nat}
  {edit : Edit}

theorem exists_save {d : Draft} (here : row ∈ db.participants.table) (covers : d.Covers row)
    (source : d.mem.source = row.source) :
    ∃ participants, db.participants.save d.mem d.fields = some participants := by
  have same : (db.participants.write d.mem d.fields).rows.map GroupCallParticipant.audio =
      db.participants.table.rows.map GroupCallParticipant.audio := by
    simp only [Participants.write, Table.modify, List.map_map]
    refine List.map_congr_left fun other listed => ?_
    rw [Function.comp_apply]
    split
    · rename_i named
      obtain rfl := Table.eq_of_key_eq (Table.mem_def.mpr listed) here
        ((beq_iff_eq.mp named).trans covers.id)
      rw [covers.merge_eq]
      exact Prod.ext covers.groupCallId source
    · rfl
  refine ⟨_, dif_pos ?_⟩
  rw [same]
  exact db.participants.audios

theorem edit_result (allowed : db.prepareEdit editor callId edit = .ok (call, row)) :
    ∃ changed, (db.editGroupCallParticipant editor callId edit).2 =
      .ok (((Draft.mk row []).edit (row.userId == editor) edit).mem, changed) := by
  have here := (prepareEdit_eq_ok allowed).1
  have stage := Draft.stage_edit ⟨row, []⟩ (row.userId == editor) edit
  have covers := stage.covers row (Draft.Covers.start row)
  unfold Db.editGroupCallParticipant
  rw [allowed]
  dsimp only
  split
  · rename_i nothing
    have kept := covers.merge_eq
    rw [List.isEmpty_iff.mp nothing, merge_nil] at kept
    exact ⟨false, by rw [← kept]⟩
  · obtain ⟨participants, saved⟩ := exists_save here covers stage.source
    exact ⟨true, by rw [Db.saveDraft, saved]; rfl⟩

theorem run_edit_result (env : Env)
    (allowed : db.prepareEdit editor callId edit = .ok (call, row)) :
    (Event.run env db ⟨editor, callId, .edit edit⟩).2 =
      .ok (some ((Draft.mk row []).edit (row.userId == editor) edit).mem) := by
  obtain ⟨changed, result⟩ := edit_result allowed
  show (db.editGroupCallParticipant editor callId edit).2.map (fun result => some result.1) = _
  rw [result]
  rfl

theorem silenced_of_mutes {e : Event} {k : Nat} (env : Env) (mutes : e.Mutes db k) :
    Silenced k (e.run env db).1 := by
  obtain ⟨edit, ⟨asked, call, row, allowed, rfl, other⟩, mutes⟩ := mutes
  obtain ⟨userId, callId, request⟩ := e
  obtain rfl := asked
  have result := outcome env db ⟨userId, callId, .edit edit⟩
  rw [run_edit_result env allowed] at result
  have stage := Draft.stage_edit ⟨row, []⟩ (row.userId == userId) edit
  have named := (stage.covers row (Draft.Covers.start row)).id
  refine silenced_of_held (named ▸ result.written) ?_
  rw [beq_eq_false_iff_ne.mpr other]
  exact Draft.held_edit_of_mutes ⟨row, []⟩ mutes

theorem prepareEdit_self (there : call ∈ db.calls) (here : row ∈ db.participants.table)
    (inCall : row.groupCallId = call.id) (alive : call.discardedAt = none)
    (present : row.left = false) (self : edit.target = .self) (quiet : edit.volume = none) :
    db.prepareEdit row.userId call.id edit = row.formatMuteDebug.map fun _ => (call, row) := by
  have found : db.getFromInputRaise call.id = .ok call :=
    orRaise_bind_eq_ok.mpr ⟨call, Table.mem_iff_get.mp there,
      check_bind_eq_ok.mpr ⟨require_eq_ok.mpr (by rw [alive]; rfl), rfl⟩⟩
  have own : db.participants.of call.id row.userId = some row := by
    rw [← inCall]
    exact Participants.of_eq_some_of_mem here
  have resolved : db.resolveParticipant call row.userId edit.target = .ok row := by
    rw [self, Db.resolveParticipant, orRaise_eq_ok, Option.filter_eq_some_iff]
    exact ⟨own, by rw [present]; rfl⟩
  rw [Db.prepareEdit, found]
  show (db.resolveParticipant call row.userId edit.target >>= _) = _
  rw [resolved, quiet]
  show (row.formatMuteDebug >>= _) = _
  rw [beq_self_eq_true]
  cases row.formatMuteDebug <;> rfl

theorem canSelfUnmute_iff (env : Env) (db : Db) : CanSelfUnmute env db ↔ Formats db := by
  constructor
  · intro can call there row here inCall alive present free
    obtain ⟨edit, self, unmutes, quiet⟩ : ∃ edit : Edit, edit.target = .self ∧
        edit.muted = some false ∧ edit.volume = none :=
      ⟨⟨.self, false, some false, none, none, none, none, none, 0⟩, rfl, rfl, rfl⟩
    obtain ⟨p, ran, -⟩ := can call there row here inCall alive present free edit self unmutes quiet
    have allowed := prepareEdit_self there here inCall alive present self quiet
    cases formatted : row.formatMuteDebug with
    | ok done => rfl
    | error failure =>
      rw [formatted] at allowed
      have failed : (Event.run env db ⟨row.userId, call.id, .edit edit⟩).2 = .error failure := by
        show (db.editGroupCallParticipant _ _ _).2.map _ = _
        rw [Db.editGroupCallParticipant, allowed]
        rfl
      cases ran.symm.trans failed
  · intro formats call there row here inCall alive present free edit self unmutes quiet
    have allowed := prepareEdit_self there here inCall alive present self quiet
    rw [formats call there row here inCall alive present free] at allowed
    have stage := Draft.stage_edit ⟨row, []⟩ (row.userId == row.userId) edit
    refine ⟨_, run_edit_result env allowed, (stage.covers row (Draft.Covers.start row)).id, ?_⟩
    rw [beq_self_eq_true]
    exact Draft.edit_unmutes free quiet unmutes

theorem formats_of_legible (legible : Legible db) : Formats db := by
  intro call there row here inCall alive present free
  have readable : ∀ groups : SourceGroups, (∀ g ∈ groups, g ∈ row.groups) →
      groups.all SourceGroup.readable = true := fun groups listed =>
    List.all_eq_true.mpr fun g given => legible row here g (listed g given)
  rw [GroupCallParticipant.formatMuteDebug,
    readable (row.videoSourceGroups.getD []) fun _ => List.mem_append_left _,
    readable (row.presentationSourceGroups.getD []) fun _ => List.mem_append_right _]
  simp only [Bool.or_true]
  rfl

end Edits

section Runs

variable {env : Env} {db : Db} {es : List Event}

/-- Who is muted by an admin stays muted until somebody who can manage the call releases them;
nobody is muted by an admin and not muted; who is not muted by an admin can unmute themself exactly
if their streams can be formatted, as they always can where the groups of all requests can be read;
and what has been changed is saved. -/
theorem admin_mute_holds (env : Env) (tame : Tame db) (es : List Event) :
    (∀ (e : Event) (p : Nat), e.Mutes db p →
      StepsMeet (step env) (fun m f => ¬ f.Releases m p) (e.run env db).1 es →
      HoldsAlong (step env) (Silenced p) (e.run env db).1 es) ∧
    HoldsAlong (step env) Tame db es ∧ (∀ m, CanSelfUnmute env m ↔ Formats m) ∧
    (Legible db → StepsMeet (step env) (fun _ e => e.Legible) db es →
      HoldsAlong (step env) (CanSelfUnmute env) db es) ∧
    EachStep (step env) (Written env) db es := by
  refine ⟨fun e p mutes meets => ?_, ?_, canSelfUnmute_iff env, fun legible meets => ?_, ?_⟩
  · refine holdsAlong_of_stepsMeet (fun _ silenced => silenced) ?_ (silenced_of_mutes env mutes)
      meets
    intro m f t silenced kept happens
    cases happens
    exact silenced_run env silenced kept
  · refine holdsAlong_of_keep (fun _ tame => tame) ?_ tame
    intro m f t tame happens
    cases happens
    exact tame_run env f tame
  · refine holdsAlong_of_stepsMeet
      (fun m legible => (canSelfUnmute_iff env m).mpr (formats_of_legible legible)) ?_ legible meets
    intro m f t legible sends happens
    cases happens
    exact legible_run env legible sends
  · intro pre e m t _ _ happens p given
    cases happens
    have result := outcome env m e
    rw [given] at result
    exact result.written

end Runs

/-- A guest in a call, alone with the one who manages it. -/
private def guest : GroupCallParticipant where
  id := 1
  groupCallId := 1
  userId := 5
  joinAsUserId := some 5
  joinAsChannelId := none
  source := 700
  muted := false
  mutedByAdmin := false
  volume := defaultGroupCallVolume
  volumeByAdmin := false
  videoStopped := true
  videoSource := none
  presentationSource := none
  videoEndpoint := none
  presentationEndpoint := none
  videoSourceGroups := none
  presentationSourceGroups := none
  videoPaused := false
  presentationPaused := false
  raiseHandRating := none
  left := false

private def talk : Db where
  calls := ⟨[⟨1, some 0, none, none, false, none, 1, 1, 1, none, 3⟩], by decide⟩
  participants := ⟨⟨[guest], by decide⟩, by decide, by decide⟩

private def asks (muted : Bool) (target : Target) : Edit :=
  ⟨target, true, some muted, none, none, none, none, none, 0⟩

private theorem talk_tame : Tame talk := by
  intro row here byAdmin
  obtain rfl := List.mem_singleton.mp (Table.mem_def.mp here)
  cases byAdmin

/-- A guest who has been muted leaves, comes back and tries to unmute; one with a camera can. -/
theorem guest_stays_muted :
    HoldsAlong (step ⟨"::1"⟩) (Silenced 1) (Event.run ⟨"::1"⟩ talk ⟨9, 1, .edit (asks true (.user 5))⟩).1
      [⟨5, 1, .leave⟩, ⟨5, 1, .join ⟨.self, false, true, none, ⟨some 800, []⟩⟩⟩,
        ⟨5, 1, .edit (asks false .self)⟩] ∧
    HoldsAlong (step ⟨"::1"⟩) (CanSelfUnmute ⟨"::1"⟩) talk
      [⟨5, 1, .video ⟨some 801, []⟩ [.group "SIM" [some 801]] false⟩] := by
  refine ⟨(admin_mute_holds ⟨"::1"⟩ talk_tame _).1 ⟨9, 1, .edit (asks true (.user 5))⟩ 1
    ⟨_, ⟨rfl, _, guest, rfl, rfl, by decide⟩, rfl⟩ ?_,
    (admin_mute_holds ⟨"::1"⟩ talk_tame _).2.2.2.1 (by unfold Legible; decide +kernel)
      ((stepsMeet_cons rfl).mpr ⟨by unfold Event.Legible; decide, trivial⟩)⟩
  refine (stepsMeet_cons rfl).mpr ⟨?_, (stepsMeet_cons rfl).mpr ⟨?_, (stepsMeet_cons rfl).mpr
    ⟨?_, trivial⟩⟩⟩
  · rintro ⟨edit, ⟨asked, -⟩, -⟩
    cases asked
  · rintro ⟨edit, ⟨asked, -⟩, -⟩
    cases asked
  · rintro ⟨edit, ⟨asked, call, row, allowed, -, other⟩, -⟩
    cases asked
    cases allowed
    exact other rfl

/-- A source that is no integer keeps a guest with a camera from unmuting. -/
theorem unreadable_stays_muted : ¬ ∀ (env : Env) (db : Db) (es : List Event), Tame db →
    HoldsAlong (step env) (CanSelfUnmute env) db es := by
  intro all
  have can := all ⟨"::1"⟩ talk [⟨5, 1, .video ⟨some 801, []⟩ [.group "SIM" [none]] false⟩] talk_tame
    _ _ (List.prefix_refl _) rfl
  have camera := (canSelfUnmute_iff _ _).mp can _ (Table.mem_def.mpr List.mem_cons_self) _
    (Table.mem_def.mpr List.mem_cons_self) rfl rfl rfl (by decide)
  exact absurd camera (by decide)

end Piltover.GroupCalls
