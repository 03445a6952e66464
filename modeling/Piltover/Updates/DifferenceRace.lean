/- source: piltover/app/handlers/updates.py, piltover/db/models/state.py
   digest: One getDifference among writers that raise State.pts before they store their rows. -/

import Piltover.Updates.Difference
import Piltover.Updates.State

set_option autoImplicit false

namespace Piltover.Updates

open Piltover.Foundation
open Piltover.Foundation.Runs

/-- How far a `get_difference` has got, with the database as it was at the queries it has made. -/
inductive Reader (υ : Type)
  | idle
  | counted (request : GetDifference) (atStart : UserUpdates)
  | loaded (request : GetDifference) (atStart atRows : UserUpdates)
  | gathered (request : GetDifference) (atStart atRows atSecret : UserUpdates)
  | answered (request : GetDifference) (window : List Update) (answer : DifferenceAnswer υ)

/-- `pending` are the rows that writers have the pts for and have not stored yet. -/
structure Race (υ : Type) where
  db : UserUpdates
  pending : List (List Update)
  reader : Reader υ

inductive RaceEvent
  | addPts (ptsCount : Int) (rows : List Update)
  | storeRows (i : Nat)
  | storeSecret (secretUpdates : List SecretUpdate)
  | ask (request : GetDifference)
  | readRows
  | readSecret
  | readState

namespace Race

variable {υ : Type} (toTl : Update → Option υ) (ctx : RequestContext)

def start (db : UserUpdates) : Race υ := ⟨db, [], .idle⟩

/-- The stored updates and those to come. -/
def updates (r : Race υ) : List Update := r.db.updates ++ r.pending.flatten

/-- A writer gets pts from `State.add_pts` for its rows, each of them for one row. -/
def step (r : Race υ) : RaceEvent → Option (Race υ)
  | .addPts ptsCount rows =>
    match r.db.statePts with
    | none => none
    | some pts =>
      if (rows.map Update.pts).Nodup ∧
          ∀ row ∈ rows, pts < row.pts ∧ row.pts ≤ State.addPts pts ptsCount then
        some { r with
          db := { r.db with statePts := some (State.addPts pts ptsCount) }
          pending := r.pending ++ [rows] }
      else none
  | .storeRows i =>
    match r.pending[i]? with
    | none => none
    | some rows =>
      some { r with
        db := { r.db with updates := r.db.updates ++ rows }
        pending := r.pending.eraseIdx i }
  | .storeSecret secretUpdates => some { r with db := { r.db with secretUpdates := secretUpdates } }
  | .ask request =>
    match r.reader with
    | .idle =>
      if request.IsTooLong r.db.serverPts then
        some { r with reader := .answered request [] (.tooLong r.db.serverPts) }
      else some { r with reader := .counted request r.db }
    | _ => none
  | .readRows =>
    match r.reader with
    | .counted request atStart => some { r with reader := .loaded request atStart r.db }
    | _ => none
  | .readSecret =>
    match r.reader with
    | .loaded request atStart atRows =>
      some { r with reader := .gathered request atStart atRows r.db }
    | _ => none
  | .readState =>
    match r.reader with
    | .gathered request atStart atRows atSecret =>
      some { r with
        reader := .answered request (atRows.newUpdates request atStart.serverPts)
          (getDifference toTl ctx atStart atRows atSecret r.db request) }
    | _ => none

/-- Every update up to the state of a `Difference` is in its window. -/
def Covers (r : Race υ) : Prop :=
  match r.reader with
  | .answered request window (.difference d) =>
    ∀ update ∈ r.updates, request.pts < update.pts → update.pts ≤ d.state.pts → update ∈ window
  | _ => True

end Race

/-- The rows that were read reach `server_pts`, so that the answer will be a `Difference`. -/
def Reaches (request : GetDifference) (atStart atRows : UserUpdates) : Prop :=
  ∃ update ∈ atRows.newUpdates request atStart.serverPts, atStart.serverPts ≤ update.pts

def Race.Lacks {υ : Type} (r : Race υ) (request : GetDifference) (window : List Update) : Prop :=
  ∃ update ∈ r.updates, request.pts < update.pts ∧ update ∉ window

/-- The request and the databases behind the rows that are not answered yet. -/
def Reader.hasRead {υ : Type} : Reader υ → Option (GetDifference × UserUpdates × UserUpdates)
  | .loaded request atStart atRows | .gathered request atStart atRows _ =>
    some (request, atStart, atRows)
  | _ => none

/-- The writers keep out of the way of the reader. When it reads rows that reach `server_pts`, no
writer has pts beyond the client's for rows it has not stored, and no row that is stored since then
is left out; from there on until it reads `State.pts` no writer gets pts for rows; and when all it
has is secret updates, there is no update beyond the client's pts. -/
def Race.KeepsClear {υ : Type} (r : Race υ) : RaceEvent → Prop
  | .readRows => ∀ request atStart, r.reader = .counted request atStart →
      Reaches request atStart r.db →
        (∀ update ∈ r.pending.flatten, update.pts ≤ request.pts) ∧
        ∀ update ∈ r.db.updates, request.pts < update.pts → atStart.serverPts < update.pts →
          update ∈ r.db.newUpdates request atStart.serverPts
  | .addPts _ rows => ∀ request atStart atRows,
      r.reader.hasRead = some (request, atStart, atRows) →
        Reaches request atStart atRows → rows = []
  | .readState => ∀ request atStart atRows atSecret,
      r.reader = .gathered request atStart atRows atSecret →
        atRows.newUpdates request atStart.serverPts = [] →
          atSecret.newSecret (atStart.lastLocalSecretId request) ≠ [] →
            ∀ update ∈ r.updates, update.pts ≤ request.pts
  | _ => True

/-- Rows that reach `server_pts` end with one that does, and hold all rows up to it. -/
theorem Reaches.mem_newUpdates {request : GetDifference} {atStart atRows : UserUpdates}
    (reaches : Reaches request atStart atRows) (distinct : (atRows.updates.map Update.pts).Nodup)
    {update : Update} (mem : update ∈ atRows.updates) (asked : request.pts < update.pts)
    (within : update.pts ≤ atStart.serverPts) :
    update ∈ atRows.newUpdates request atStart.serverPts := by
  obtain ⟨far, listed, reach⟩ := reaches
  cases ends : (atRows.newUpdates request atStart.serverPts).getLast? with
  | none =>
    rw [List.getLast?_eq_none_iff.mp ends] at listed
    cases listed
  | some last =>
    obtain ⟨_, _, before⟩ := (Paging.mem_page_iff distinct ends).mp listed
    have upTo : update.pts ≤ last.pts := within.trans (reach.trans before)
    exact (Paging.mem_page_iff distinct ends).mpr ⟨mem, asked, upTo⟩

theorem mem_of_mem_newUpdates {request : GetDifference} {db : UserUpdates} {serverPts : Int}
    {update : Update} (mem : update ∈ db.newUpdates request serverPts) :
    update ∈ db.updates ∧ request.pts < update.pts := by
  obtain ⟨listed, asked, _⟩ := Paging.mem_of_mem_page mem
  exact ⟨listed, asked⟩

section Answer

variable {υ : Type} {toTl : Update → Option υ} {ctx : RequestContext}
  {atStart atRows atSecret atEnd : UserUpdates} {request : GetDifference} {d : Difference υ}

/-- A `Difference` for rows that reach `server_pts`, or for secret updates alone. -/
theorem reaches_of_difference
    (answered : getDifference toTl ctx atStart atRows atSecret atEnd request = .difference d) :
    Reaches request atStart atRows ∨
      atRows.newUpdates request atStart.serverPts = [] ∧
        atSecret.newSecret (atStart.lastLocalSecretId request) ≠ [] := by
  obtain ⟨_, onlySecret | ⟨last, ends, all⟩⟩ := getDifference_difference answered
  · exact .inr onlySecret
  · exact .inl ⟨last, List.mem_of_getLast? ends, all⟩

variable (toTl ctx)

/-- The other way round: such rows are answered with a `Difference`. -/
theorem difference_of_onlySecret (atEnd : UserUpdates) (short : ¬ request.IsTooLong atStart.serverPts)
    (nothing : atRows.newUpdates request atStart.serverPts = [])
    (secret : atSecret.newSecret (atStart.lastLocalSecretId request) ≠ []) :
    ∃ d, getDifference toTl ctx atStart atRows atSecret atEnd request = .difference d := by
  simp only [getDifference, if_neg short, nothing, List.getLast?_nil, if_neg secret]
  exact ⟨_, rfl⟩

theorem difference_of_reaches (atSecret atEnd : UserUpdates)
    (distinct : (atRows.updates.map Update.pts).Nodup)
    (short : ¬ request.IsTooLong atStart.serverPts) (reaches : Reaches request atStart atRows) :
    ∃ d, getDifference toTl ctx atStart atRows atSecret atEnd request = .difference d := by
  obtain ⟨far, listed, reach⟩ := reaches
  cases ends : (atRows.newUpdates request atStart.serverPts).getLast? with
  | none =>
    rw [List.getLast?_eq_none_iff.mp ends] at listed
    cases listed
  | some last =>
    obtain ⟨_, _, before⟩ := (Paging.mem_page_iff distinct ends).mp listed
    have all : atStart.serverPts ≤ last.pts := reach.trans before
    simp only [getDifference, if_neg short, ends, if_pos all]
    exact ⟨_, rfl⟩

end Answer

namespace RaceEvent

/-- The rows that an event gets pts for. -/
def rows : RaceEvent → List Update
  | .addPts _ rows => rows
  | _ => []

def IsWriter : RaceEvent → Prop
  | .addPts _ _ | .storeRows _ | .storeSecret _ => True
  | _ => False

end RaceEvent

namespace Race

variable {υ : Type} {toTl : Update → Option υ} {ctx : RequestContext} {r t : Race υ}
  {e : RaceEvent} {request : GetDifference} {atStart atRows atSecret : UserUpdates}

def pts (r : Race υ) : Int := r.db.statePts.getD 0

/-- What writers do to the updates: the new rows are beyond all that there were. -/
structure Grows (r : Race υ) (rows : List Update) (t : Race υ) : Prop where
  reader : t.reader = r.reader
  updates : t.updates.Perm (r.updates ++ rows)
  distinct : (rows.map Update.pts).Nodup
  beyond : ∀ row ∈ rows, r.pts < row.pts ∧ row.pts ≤ t.pts
  raises : r.pts ≤ t.pts

inductive Happens (toTl : Update → Option υ) (ctx : RequestContext) (r : Race υ) :
    RaceEvent → Race υ → Prop
  | writes {e : RaceEvent} {t : Race υ} (writer : e.IsWriter) (grows : Grows r e.rows t) :
      Happens toTl ctx r e t
  | refuses (request : GetDifference) (idle : r.reader = .idle) :
      Happens toTl ctx r (.ask request)
        { r with reader := .answered request [] (.tooLong r.db.serverPts) }
  | asks (request : GetDifference) (idle : r.reader = .idle)
      (short : ¬ request.IsTooLong r.db.serverPts) :
      Happens toTl ctx r (.ask request) { r with reader := .counted request r.db }
  | readsRows {request : GetDifference} {atStart : UserUpdates}
      (counted : r.reader = .counted request atStart) :
      Happens toTl ctx r .readRows { r with reader := .loaded request atStart r.db }
  | readsSecret {request : GetDifference} {atStart atRows : UserUpdates}
      (loaded : r.reader = .loaded request atStart atRows) :
      Happens toTl ctx r .readSecret { r with reader := .gathered request atStart atRows r.db }
  | readsState {request : GetDifference} {atStart atRows atSecret : UserUpdates}
      (gathered : r.reader = .gathered request atStart atRows atSecret) :
      Happens toTl ctx r .readState
        { r with
          reader := .answered request (atRows.newUpdates request atStart.serverPts)
            (getDifference toTl ctx atStart atRows atSecret r.db request) }

private theorem grows_nil (reader : t.reader = r.reader) (updates : t.updates.Perm r.updates)
    (raises : r.pts ≤ t.pts) : Grows r [] t := by
  refine ⟨reader, ?_, List.nodup_nil, ?_, raises⟩
  · rw [List.append_nil]
    exact updates
  · intro row listed
    cases listed

private theorem storeRows_perm {stored rows : List Update} {pending : List (List Update)} {i : Nat}
    (found : pending[i]? = some rows) :
    (stored ++ rows ++ (pending.eraseIdx i).flatten).Perm (stored ++ pending.flatten) := by
  obtain ⟨inside, rfl⟩ := List.getElem?_eq_some_iff.mp found
  have moved := (List.getElem_cons_eraseIdx_perm inside).flatten
  rw [List.append_assoc]
  exact moved.append_left stored

theorem step_happens (happens : step toTl ctx r e = some t) : Happens toTl ctx r e t := by
  cases e with
  | addPts ptsCount rows =>
    rw [step] at happens
    split at happens
    · cases happens
    · rename_i pts known
      split at happens
      · rename_i allowed
        cases happens
        have before : r.pts = pts := by rw [Race.pts, known]; rfl
        refine .writes trivial ⟨rfl, ?_, allowed.1, ?_, ?_⟩
        · simp [updates, RaceEvent.rows]
        · rw [before]
          exact allowed.2
        · rw [before]
          exact State.le_addPts pts ptsCount
      · cases happens
  | storeRows i =>
    rw [step] at happens
    split at happens
    · cases happens
    · rename_i rows found
      cases happens
      refine .writes trivial (grows_nil rfl ?_ (le_refl r.pts))
      exact storeRows_perm found
  | storeSecret secretUpdates =>
    cases happens
    exact .writes trivial (grows_nil rfl (List.Perm.refl _) (le_refl r.pts))
  | ask request =>
    rw [step] at happens
    split at happens
    · rename_i idle
      split at happens
      · cases happens
        exact .refuses request idle
      · rename_i short
        cases happens
        exact .asks request idle short
    · cases happens
  | readRows =>
    rw [step] at happens
    split at happens
    · rename_i counted
      cases happens
      exact .readsRows counted
    · cases happens
  | readSecret =>
    rw [step] at happens
    split at happens
    · rename_i loaded
      cases happens
      exact .readsSecret loaded
    · cases happens
  | readState =>
    rw [step] at happens
    split at happens
    · rename_i gathered
      cases happens
      exact .readsState gathered
    · cases happens

/-- What a reader has got from the database stays behind `State.pts`. -/
def Behind (pts : Int) : Reader υ → Prop
  | .counted request atStart => ¬ request.IsTooLong atStart.serverPts
  | .loaded request atStart atRows | .gathered request atStart atRows _ =>
    ¬ request.IsTooLong atStart.serverPts ∧
      (atRows.updates.map Update.pts).Nodup ∧ ∀ update ∈ atRows.updates, update.pts ≤ pts
  | .answered _ _ answer => ∀ d, answer = .difference d → d.state.pts ≤ pts
  | .idle => True

/-- What every step keeps. -/
structure Sound (r : Race υ) : Prop where
  distinct : (r.updates.map Update.pts).Nodup
  raised : ∀ update ∈ r.updates, update.pts ≤ r.pts
  behind : Behind r.pts r.reader

theorem Behind.mono {reader : Reader υ} {before after : Int} (raises : before ≤ after)
    (behind : Behind before reader) : Behind after reader := by
  cases reader with
  | idle => trivial
  | counted => exact behind
  | loaded | gathered =>
    obtain ⟨short, distinct, stored⟩ := behind
    exact ⟨short, distinct, fun update mem => (stored update mem).trans raises⟩
  | answered =>
    intro d answer
    exact (behind d answer).trans raises

theorem Behind.of_hasRead {reader : Reader υ} {pts : Int} (behind : Behind pts reader)
    (read : reader.hasRead = some (request, atStart, atRows)) :
    ¬ request.IsTooLong atStart.serverPts ∧
      (atRows.updates.map Update.pts).Nodup ∧ ∀ update ∈ atRows.updates, update.pts ≤ pts := by
  cases reader <;> cases read <;> exact behind

theorem Grows.mem_iff {rows : List Update} (grows : Grows r rows t) {update : Update} :
    update ∈ t.updates ↔ update ∈ r.updates ∨ update ∈ rows :=
  grows.updates.mem_iff.trans List.mem_append

theorem Grows.sound {rows : List Update} (grows : Grows r rows t) (sound : r.Sound) : t.Sound where
  distinct := by
    have apart : ∀ pts ∈ r.updates.map Update.pts, ∀ beyond ∈ rows.map Update.pts,
        pts ≠ beyond := by
      intro pts listed beyond fresh same
      obtain ⟨update, mem, rfl⟩ := List.mem_map.mp listed
      obtain ⟨row, added, rfl⟩ := List.mem_map.mp fresh
      have old := sound.raised update mem
      have new := (grows.beyond row added).1
      omega
    rw [(grows.updates.map Update.pts).nodup_iff, List.map_append]
    exact List.nodup_append.mpr ⟨sound.distinct, grows.distinct, apart⟩
  raised := by
    intro update mem
    rcases grows.mem_iff.mp mem with old | new
    · exact (sound.raised update old).trans grows.raises
    · exact (grows.beyond update new).2
  behind := by
    rw [grows.reader]
    exact sound.behind.mono grows.raises

private theorem Sound.stored (sound : r.Sound) :
    (r.db.updates.map Update.pts).Nodup ∧ ∀ update ∈ r.db.updates, update.pts ≤ r.pts := by
  have distinct := sound.distinct
  rw [updates, List.map_append] at distinct
  exact ⟨distinct.of_append_left, fun update mem =>
    sound.raised update (List.mem_append_left _ mem)⟩

private theorem Sound.pending_apart (sound : r.Sound) {update : Update}
    (toCome : update ∈ r.pending.flatten) : update ∉ r.db.updates := by
  have distinct := sound.distinct
  rw [updates, List.map_append] at distinct
  intro stored
  exact List.disjoint_of_nodup_append distinct (List.mem_map_of_mem stored)
    (List.mem_map_of_mem toCome)

theorem sound_step (sound : r.Sound) (happens : Happens toTl ctx r e t) : t.Sound := by
  have behind := sound.behind
  cases happens with
  | writes writer grows => exact grows.sound sound
  | refuses request idle =>
    refine ⟨sound.distinct, sound.raised, ?_⟩
    intro d answer
    cases answer
  | asks request idle short => exact ⟨sound.distinct, sound.raised, short⟩
  | readsRows counted =>
    rw [counted] at behind
    exact ⟨sound.distinct, sound.raised, behind, sound.stored⟩
  | readsSecret loaded =>
    rw [loaded] at behind
    exact ⟨sound.distinct, sound.raised, behind⟩
  | readsState gathered =>
    refine ⟨sound.distinct, sound.raised, ?_⟩
    intro d answer
    exact (getDifference_difference answer).1.le

private theorem covers_answered {window : List Update} {answer : DifferenceAnswer υ}
    (answered : r.reader = .answered request window answer) :
    r.Covers ↔ ∀ d, answer = .difference d → ∀ update ∈ r.updates,
      request.pts < update.pts → update.pts ≤ d.state.pts → update ∈ window := by
  rw [Covers, answered]
  cases answer with
  | difference d =>
    constructor
    · intro covered d' same
      cases same
      exact covered
    · intro covered
      exact covered d rfl
  | empty | tooLong | slice =>
    refine iff_of_true trivial ?_
    intro d same
    cases same

private theorem covers_unanswered (unanswered : ∀ request window answer,
    r.reader ≠ .answered request window answer) : r.Covers := by
  unfold Covers
  split
  · rename_i answered
    exact absurd answered (unanswered _ _ _)
  · trivial

theorem Grows.covers_iff {rows : List Update} (grows : Grows r rows t) (sound : r.Sound) :
    t.Covers ↔ r.Covers := by
  cases reader : r.reader with
  | answered request window answer =>
    have behind := sound.behind
    rw [reader] at behind
    rw [covers_answered reader, covers_answered (grows.reader.trans reader)]
    refine forall₂_congr fun d same => forall_congr' fun update => ?_
    constructor
    · intro covered mem
      exact covered (grows.mem_iff.mpr (.inl mem))
    · intro covered mem asked within
      rcases grows.mem_iff.mp mem with old | new
      · exact covered old asked within
      · have := (grows.beyond update new).1
        have := behind d same
        omega
  | idle | counted | loaded | gathered =>
    have unanswered : ∀ request window answer, r.reader ≠ .answered request window answer := by
      intro request window answer same
      rw [reader] at same
      cases same
    refine iff_of_true (covers_unanswered ?_) (covers_unanswered unanswered)
    rw [grows.reader]
    exact unanswered

private theorem Grows.lacks {rows window : List Update} (grows : Grows r rows t)
    (lacks : r.Lacks request window) : t.Lacks request window := by
  obtain ⟨update, mem, missing⟩ := lacks
  exact ⟨update, grows.mem_iff.mpr (.inl mem), missing⟩

/-- No update is lost: the rows of a coming `Difference` lack nothing. -/
structure Complete (r : Race υ) : Prop extends Sound r where
  covers : r.Covers
  lacksNothing : ∀ request atStart atRows, r.reader.hasRead = some (request, atStart, atRows) →
    Reaches request atStart atRows →
      ¬ r.Lacks request (atRows.newUpdates request atStart.serverPts)

/-- An update that the answer does not have is lost, or will be. -/
structure Loses (r : Race υ) : Prop extends Sound r where
  missing : ¬ r.Covers ∨ ∃ request atStart atRows,
    r.reader.hasRead = some (request, atStart, atRows) ∧ Reaches request atStart atRows ∧
      r.Lacks request (atRows.newUpdates request atStart.serverPts)

private theorem Sound.lacksNothing (sound : r.Sound) (reaches : Reaches request atStart r.db)
    (noPending : ∀ update ∈ r.pending.flatten, update.pts ≤ request.pts)
    (noneLeftOut : ∀ update ∈ r.db.updates, request.pts < update.pts →
      atStart.serverPts < update.pts → update ∈ r.db.newUpdates request atStart.serverPts) :
    ¬ r.Lacks request (r.db.newUpdates request atStart.serverPts) := by
  rintro ⟨update, mem, asked, missing⟩
  rcases List.mem_append.mp mem with stored | toCome
  · rcases le_or_gt update.pts atStart.serverPts with within | later
    · exact missing (reaches.mem_newUpdates sound.stored.1 stored asked within)
    · exact missing (noneLeftOut update stored asked later)
  · have := noPending update toCome
    omega

theorem complete_step (complete : r.Complete) (clear : r.KeepsClear e)
    (happens : Happens toTl ctx r e t) : t.Complete := by
  have sound := sound_step complete.toSound happens
  cases happens with
  | writes writer grows =>
    refine ⟨sound, (grows.covers_iff complete.toSound).mpr complete.covers, ?_⟩
    intro request atStart atRows read reaches lacks
    rw [grows.reader] at read
    have quiet : e.rows = [] := by
      cases e with
      | addPts ptsCount rows => exact clear request atStart atRows read reaches
      | _ => rfl
    obtain ⟨update, mem, missing⟩ := lacks
    rw [grows.mem_iff, quiet] at mem
    rcases mem with old | new
    · exact complete.lacksNothing request atStart atRows read reaches ⟨update, old, missing⟩
    · cases new
  | refuses request idle =>
    refine ⟨sound, trivial, ?_⟩
    intro request atStart atRows read
    cases read
  | asks request idle short =>
    refine ⟨sound, trivial, ?_⟩
    intro request atStart atRows read
    cases read
  | @readsRows request atStart counted =>
    refine ⟨sound, trivial, ?_⟩
    intro _ _ _ read reaches
    cases read
    obtain ⟨noPending, noneLeftOut⟩ := clear request atStart counted reaches
    exact complete.toSound.lacksNothing reaches noPending noneLeftOut
  | @readsSecret request atStart atRows loaded =>
    refine ⟨sound, trivial, ?_⟩
    intro request' atStart' atRows' read
    cases read
    have read : r.reader.hasRead = some (request, atStart, atRows) := by rw [loaded]; rfl
    exact complete.lacksNothing request atStart atRows read
  | @readsState request atStart atRows atSecret gathered =>
    refine ⟨sound, ?_, ?_⟩
    · rw [covers_answered rfl]
      intro d answer update mem asked _
      have read : r.reader.hasRead = some (request, atStart, atRows) := by rw [gathered]; rfl
      rcases reaches_of_difference answer with reaches | ⟨nothing, secret⟩
      · by_contra missing
        exact complete.lacksNothing request atStart atRows read reaches
          ⟨update, mem, asked, missing⟩
      · have := clear request atStart atRows atSecret gathered nothing secret update mem
        omega
    · intro request atStart atRows read
      cases read

/-- A row beyond `State.pts` is lost to a reader that has its rows already. -/
private theorem Grows.lacks_new {rows : List Update} (grows : Grows r rows t) (sound : r.Sound)
    (read : r.reader.hasRead = some (request, atStart, atRows))
    (reaches : Reaches request atStart atRows) (fresh : rows ≠ []) :
    t.Lacks request (atRows.newUpdates request atStart.serverPts) := by
  obtain ⟨row, added⟩ := List.exists_mem_of_ne_nil rows fresh
  obtain ⟨_, _, stored⟩ := sound.behind.of_hasRead read
  have beyond := (grows.beyond row added).1
  have asked : request.pts < row.pts := by
    obtain ⟨far, listed, _⟩ := reaches
    obtain ⟨inRows, later⟩ := mem_of_mem_newUpdates listed
    have := stored far inRows
    omega
  refine ⟨row, grows.mem_iff.mpr (.inr added), asked, ?_⟩
  intro listed
  have := stored row (mem_of_mem_newUpdates listed).1
  omega

theorem loses_of_not_clear (complete : r.Complete) (unclear : ¬ r.KeepsClear e)
    (happens : Happens toTl ctx r e t) : t.Loses := by
  have sound := sound_step complete.toSound happens
  cases happens with
  | @writes e t writer grows =>
    cases e with
    | addPts ptsCount rows =>
      simp only [KeepsClear, not_forall] at unclear
      obtain ⟨request, atStart, atRows, read, reaches, fresh⟩ := unclear
      refine ⟨sound, .inr ⟨request, atStart, atRows, ?_, reaches, ?_⟩⟩
      · rw [grows.reader]
        exact read
      · exact grows.lacks_new complete.toSound read reaches fresh
    | storeRows | storeSecret => exact absurd trivial unclear
    | ask | readRows | readSecret | readState => cases writer
  | refuses | asks | readsSecret => exact absurd trivial unclear
  | @readsRows request atStart counted =>
    simp only [KeepsClear, counted, not_forall] at unclear
    obtain ⟨_, _, same, reaches, unclear⟩ := unclear
    cases same
    refine ⟨sound, .inr ⟨request, atStart, r.db, rfl, reaches, ?_⟩⟩
    by_contra lacksNothing
    refine unclear ⟨fun update toCome => ?_, fun update stored asked later => ?_⟩
    · by_contra asked
      apply lacksNothing
      refine ⟨update, List.mem_append_right _ toCome, not_le.mp asked, ?_⟩
      intro listed
      exact complete.pending_apart toCome (mem_of_mem_newUpdates listed).1
    · by_contra missing
      exact lacksNothing ⟨update, List.mem_append_left _ stored, asked, missing⟩
  | @readsState request atStart atRows atSecret gathered =>
    simp only [KeepsClear, gathered, not_forall] at unclear
    obtain ⟨_, _, _, _, same, nothing, secret, update, mem, asked⟩ := unclear
    cases same
    have behind := complete.behind
    rw [gathered] at behind
    obtain ⟨d, answer⟩ := difference_of_onlySecret toTl ctx r.db behind.1 nothing secret
    refine ⟨sound, .inl ?_⟩
    rw [covers_answered rfl]
    intro covered
    have listed := covered d answer update mem (not_le.mp asked) ?_
    · rw [nothing] at listed
      cases listed
    · rw [(getDifference_difference answer).1]
      exact complete.raised update mem

theorem loses_step (loses : r.Loses) (happens : Happens toTl ctx r e t) : t.Loses := by
  have sound := sound_step loses.toSound happens
  have missing := loses.missing
  cases happens with
  | writes writer grows =>
    refine ⟨sound, ?_⟩
    rw [grows.covers_iff loses.toSound, grows.reader]
    rcases missing with uncovered | ⟨request, atStart, atRows, read, reaches, lacks⟩
    · exact .inl uncovered
    · exact .inr ⟨request, atStart, atRows, read, reaches, grows.lacks lacks⟩
  | refuses request idle | asks request idle =>
    rcases missing with uncovered | ⟨_, _, _, read, _⟩
    · exact absurd (covers_unanswered (by simp [idle])) uncovered
    · rw [idle] at read
      cases read
  | readsRows counted =>
    rcases missing with uncovered | ⟨_, _, _, read, _⟩
    · exact absurd (covers_unanswered (by simp [counted])) uncovered
    · rw [counted] at read
      cases read
  | readsSecret loaded =>
    rcases missing with uncovered | ⟨request, atStart, atRows, read, reaches, lacks⟩
    · exact absurd (covers_unanswered (by simp [loaded])) uncovered
    · rw [loaded] at read
      exact ⟨sound, .inr ⟨request, atStart, atRows, read, reaches, lacks⟩⟩
  | @readsState request atStart atRows atSecret gathered =>
    rcases missing with uncovered | ⟨_, _, _, read, reaches, update, mem, asked, missing⟩
    · exact absurd (covers_unanswered (by simp [gathered])) uncovered
    · rw [gathered] at read
      cases read
      have behind := loses.behind
      rw [gathered] at behind
      obtain ⟨short, distinct, _⟩ := behind
      obtain ⟨d, answer⟩ := difference_of_reaches toTl ctx atSecret r.db distinct short reaches
      refine ⟨sound, .inl ?_⟩
      rw [covers_answered rfl]
      intro covered
      apply missing
      apply covered d answer update mem asked
      rw [(getDifference_difference answer).1]
      exact loses.raised update mem

private theorem complete_start {db : UserUpdates} (stored : db.Stored) :
    (start db : Race υ).Complete := by
  have nothingElse : (start db : Race υ).updates = db.updates := List.append_nil db.updates
  refine ⟨⟨?_, ?_, trivial⟩, trivial, ?_⟩
  · rw [nothingElse]
    exact stored.distinct
  · rw [nothingElse]
    exact stored.raised
  · intro request atStart atRows read
    cases read

/-- An answered `get_difference` covers what its state says exactly when the writers kept clear of
it all along. -/
theorem difference_covers_iff (toTl : Update → Option υ) (ctx : RequestContext) (db : UserUpdates)
    (stored : db.Stored) (es : List RaceEvent) (t : Race υ)
    (run : runFrom (step toTl ctx) (start db) es = some t) (request : GetDifference)
    (window : List Update) (answer : DifferenceAnswer υ)
    (answered : t.reader = .answered request window answer) :
    t.Covers ↔ StepsMeet (step toTl ctx) KeepsClear (start db) es := by
  have keep : ∀ r e t, Complete r → KeepsClear r e → step toTl ctx r e = some t → t.Complete :=
    fun _ _ _ complete clear happens => complete_step complete clear (step_happens happens)
  constructor
  · intro covers
    have ended := run_meets_or_loses keep
      (fun _ _ _ complete unclear happens =>
        loses_of_not_clear complete unclear (step_happens happens))
      (fun _ _ _ loses happens => loses_step loses (step_happens happens))
      (complete_start stored) run
    rcases ended with clear | ⟨_, uncovered | ⟨_, _, _, read, _⟩⟩
    · exact clear
    · exact absurd covers uncovered
    · rw [answered] at read
      cases read
  · intro clear
    exact (run_invariant keep (complete_start stored) clear run).covers

open Poll (rowAt)

/-- A user with a row at 1. -/
def onePts : UserUpdates := ⟨[rowAt 1 1], some 1, [], 0, 0, fun _ => []⟩

private theorem onePts_stored : onePts.Stored := ⟨by decide, by decide⟩

def fromZero : GetDifference := ⟨0, none, none, 0, 0⟩

def raceOnePts : Race Unit → RaceEvent → Option (Race Unit) := step (fun _ => none) ⟨1, 200⟩

/-- Another row at 2, and an answer with the first row and some state. -/
def afterTwo (state : Int) : Race Unit :=
  ⟨⟨[rowAt 1 1, rowAt 2 1], some 2, [], 0, 0, fun _ => []⟩, [],
    .answered fromZero [rowAt 1 1] (.difference ⟨[], [], [], ⟨state, 0, 0, 0⟩⟩)⟩

def writerLast : List RaceEvent :=
  [.ask fromZero, .readRows, .readSecret, .readState, .addPts 1 [rowAt 2 1], .storeRows 0]

def writerBetween : List RaceEvent :=
  [.ask fromZero, .readRows, .addPts 1 [rowAt 2 1], .readSecret, .readState, .storeRows 0]

private theorem run_writerLast : runFrom raceOnePts (start onePts) writerLast = some (afterTwo 1) :=
  rfl

/-- A writer that comes after the answer. -/
theorem difference_covers_iff_writerLast :
    (afterTwo 1).Covers ∧ StepsMeet raceOnePts KeepsClear (start onePts) writerLast := by
  have covered : (afterTwo 1).Covers := by
    intro update mem _ within
    simp only [updates, afterTwo, List.flatten_nil, List.append_nil, List.mem_cons,
      List.not_mem_nil, or_false] at mem
    rcases mem with rfl | rfl
    · exact List.mem_singleton.mpr rfl
    · cases within
  have clear := (difference_covers_iff (fun _ => none) ⟨1, 200⟩ onePts onePts_stored writerLast
    (afterTwo 1) run_writerLast fromZero [rowAt 1 1] _ rfl).mp covered
  exact ⟨covered, clear⟩

/-- A writer between the rows and the state: its row is in no answer, and behind the state. -/
theorem row_behind_state_lost :
    runFrom raceOnePts (start onePts) writerBetween = some (afterTwo 2) ∧
      ¬ (afterTwo 2).Covers := by
  refine ⟨rfl, fun covered => ?_⟩
  have listed : rowAt 2 1 ∈ [rowAt 1 1] := covered (rowAt 2 1) (by decide) (by decide) (by decide)
  cases List.mem_singleton.mp listed

end Race

end Piltover.Updates
