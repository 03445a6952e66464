/- source: piltover/app/handlers/group_calls.py, piltover/app/utils/group_calls.py
   digest: Sources belong to one stream each, as long as none is chosen that another has. -/

import Piltover.GroupCalls.Mute
import Piltover.GroupCalls.Sources

set_option autoImplicit false

namespace Piltover.GroupCalls

open Piltover.Foundation
open Piltover.Foundation.Runs
open Piltover.Foundation.Interleaved

abbrev Calls := World Hall Pending

abbrev Happening := Interleaved.Event Asked Int Empty

namespace Seat

def kind : Seat → Kind
  | audio _ _ => .audio
  | video _ _ _ => .video
  | presentation _ _ _ => .presentation

/-- The participant whose stream it is, if the row has been read. -/
def participant : Seat → Option GroupCallParticipant
  | audio _ _ => none
  | video p _ _ => some p
  | presentation p _ _ => some p

end Seat

def Visit.Reserves (v : Visit) (callId : Nat) (h : Holder) (source : Int) : Prop :=
  match v.stage with
  | .allocating seat chosen => v.call.id = callId ∧ h = ⟨v.userId, seat.kind⟩ ∧ chosen = source
  | .looking _ _ chosen => v.call.id = callId ∧ h = ⟨v.userId, .audio⟩ ∧ chosen = source
  | .creating _ _ chosen => v.call.id = callId ∧ h = ⟨v.userId, .audio⟩ ∧ chosen = source
  | .saving d _ => d.mem.groupCallId = callId ∧ d.mem.userId = h.userId ∧ d.Gives h.kind source
  | _ => False

def Pending.Reserves : Pending → Nat → Holder → Int → Prop
  | .visit v => v.Reserves
  | _ => fun _ _ _ => False

/-- A request under way has chosen the source for a stream. -/
def Reserved (w : Calls) (callId : Nat) (h : Holder) (source : Int) : Prop :=
  ∃ n t, w.calls n = some t ∧ t.Reserves callId h source

def Claimed (w : Calls) (callId : Nat) (h : Holder) (source : Int) : Prop :=
  w.shared.db.Uses callId h source ∨ Reserved w callId h source

def Single (w : Calls) : Prop :=
  ∀ callId h h' source, Claimed w callId h source → Claimed w callId h' source → h = h'

namespace Visit

variable (v : Visit)

/-- Another user of the call has the source, and it is not excluded. -/
def Taken (db : Db) (seat : Seat) (source : Int) : Prop :=
  source ∉ seat.excluded ∧ ∃ h, h.userId ≠ v.userId ∧ db.Uses v.call.id h source

/-- No other request has chosen the source, it is that of no other stream of the user, and if it is
excluded, nobody else has it. -/
def Free (w : Calls) (seat : Seat) (source : Int) : Prop :=
  ∀ h, h ≠ ⟨v.userId, seat.kind⟩ → ¬ Reserved w v.call.id h source ∧
    (w.shared.db.Uses v.call.id h source → h.userId ≠ v.userId ∧ source ∉ seat.excluded)

end Visit

/-- The sources that are tried: that of the client, or else the random ones. -/
def Seat.tries (seat : Seat) : List Int :=
  seat.ssrc.client.elim (seat.ssrc.candidates.take 10) fun source => [source]

/-- Each source that is tried is free, and so is the next one of the call where all random ones are
taken. -/
def Careful (w : Calls) : Happening → Prop
  | .go n _ => ∀ v seat, w.calls n = some (.visit v) → v.stage = .choosing seat →
      (∀ tried source rest, seat.tries = tried ++ source :: rest →
        (∀ s ∈ tried, v.Taken w.shared.db seat s) → v.Free w seat source) ∧
      (seat.ssrc.client = none → (∀ s ∈ seat.tries, v.Taken w.shared.db seat s) →
        ∀ h, Claimed w v.call.id h v.call.nextSource → h = ⟨v.userId, seat.kind⟩)
  | _ => True

def Db.Has (db : Db) (p : GroupCallParticipant) : Prop :=
  ∃ row ∈ db.participants.table, row.id = p.id ∧ row.member = p.member

/-- The participant of a seat is the user of the request. -/
def Seat.Fits (db : Db) (userId callId : Nat) (seat : Seat) : Prop :=
  ∀ p, seat.participant = some p → db.Has p ∧ p.member = (callId, userId)

def Visit.Fits (db : Db) (v : Visit) : Prop :=
  match v.stage with
  | .choosing seat => seat.Fits db v.userId v.call.id
  | .allocating seat _ => seat.Fits db v.userId v.call.id
  | .saving d _ => db.Has d.mem ∧ d.mem.groupCallId = v.call.id
  | _ => True

def Pending.Fits (db : Db) : Pending → Prop
  | .visit v => v.Fits db
  | _ => True

/-! ### What a turn does to the participants -/

inductive Touches (db : Db) (t : Pending) (db' : Db) : Prop
  | nothing (same : db'.participants = db.participants)
  | dismissed (which : GroupCallParticipant → Bool)
      (same : db'.participants = db.participants.dismiss which)
  | created (v : Visit) (r : Join) (joinAs : Option Nat × Option Nat) (source : Int)
      (turn : t = .visit v) (stage : v.stage = .creating r joinAs source)
      (made : db.participants.create (r.participant v.call v.userId joinAs source) =
        some db'.participants)
  | saved (v : Visit) (d : Draft) (leaves : Bool) (turn : t = .visit v)
      (stage : v.stage = .saving d leaves)
      (saved : db.participants.save d.mem d.fields = some db'.participants)

section Touching

variable {env : Env} {hall : Hall} {t : Pending} {now : Int} {db db' : Db}

theorem touches_visit (env : Env) (hall : Hall) (v : Visit) (now : Int) :
    Touches hall.db (.visit v) (v.advance env hall now).1.db := by
  cases stage : v.stage with
  | requiring r =>
    simp only [Visit.advance, stage]
    split <;> exact .nothing rfl
  | choosing seat =>
    simp only [Visit.advance, stage]
    split <;> exact .nothing rfl
  | allocating seat source =>
    simp only [Visit.advance, stage]
    exact .nothing (participants_allocate _ _ _)
  | looking r joinAs source =>
    simp only [Visit.advance, stage]
    split <;> exact .nothing rfl
  | creating r joinAs source =>
    simp only [Visit.advance, stage, Visit.create]
    split
    · rename_i participants made
      exact .created v r joinAs source rfl stage made
    · exact .nothing rfl
  | saving d leaves =>
    simp only [Visit.advance, stage, Visit.save]
    split
    · rename_i participants saved
      exact .saved v d leaves rfl stage saved
    · exact .nothing rfl
  | bumping leaves =>
    simp only [Visit.advance, stage]
    split <;> exact .nothing rfl
  | counting =>
    simp only [Visit.advance, stage]
    split <;> exact .nothing rfl
  | discarding =>
    simp only [Visit.advance, stage]
    exact .nothing rfl

theorem touches_advance (env : Env) (hall : Hall) (now : Int) (t : Pending) :
    Touches hall.db t (t.advance env hall now).1.db := by
  cases t with
  | visit v => exact touches_visit env hall v now
  | managing call refusal m =>
    simp only [Pending.advance]
    split
    · exact .nothing rfl
    · split <;> exact .nothing rfl
  | clearing callId => exact .dismissed _ rfl
  | opening c =>
    simp only [Pending.advance]
    split <;> exact .nothing rfl
  | dismissing c active => exact .nothing rfl
  | committing c active =>
    cases active with
    | none => exact .nothing rfl
    | some found => exact .dismissed _ rfl

theorem stream_gone (p : GroupCallParticipant) (k : Kind) : p.gone.stream k = p.stream k := by
  cases k <;> rfl

theorem stream_merge (fields : List Field) (mem row : GroupCallParticipant) (k : Kind) :
    (merge fields mem row).stream k = if k.field ∈ fields then mem.stream k else row.stream k := by
  cases k with
  | audio => exact (apply_ite some _ _ _)
  | video => rfl
  | presentation => rfl

theorem Db.Has.eq_of_id {p row : GroupCallParticipant} (has : db.Has p)
    (here : row ∈ db.participants.table) (named : row.id = p.id) : row.member = p.member := by
  obtain ⟨found, there, named', same⟩ := has
  obtain rfl := Table.eq_of_key_eq there here (named'.trans named.symm)
  exact same

theorem has_of_touches {p : GroupCallParticipant} (touches : Touches db t db') (has : db.Has p) :
    db'.Has p := by
  obtain ⟨row, here, named, same⟩ := has
  cases touches with
  | nothing kept =>
    rw [Db.Has, kept]
    exact ⟨row, here, named, same⟩
  | dismissed which kept =>
    rw [Db.Has, kept]
    refine ⟨_, Participants.mem_dismiss.mpr ⟨row, here, rfl⟩, ?_⟩
    split <;> exact ⟨named, same⟩
  | created v r joinAs source turn stage made =>
    obtain ⟨fresh, table⟩ := Participants.create_eq_some made
    rw [Db.Has, table]
    exact ⟨row, (Table.mem_insert fresh).mpr (.inl here), named, same⟩
  | saved v d leaves turn stage saved =>
    rw [Db.Has, Participants.save_eq_some saved]
    refine ⟨_, Participants.mem_write.mpr ⟨row, here, rfl⟩, ?_⟩
    split <;> exact ⟨named, same⟩

theorem uses_write {d : Draft} {row : GroupCallParticipant} {k : Kind} {source : Int}
    (has : db.Has d.mem) (there : row ∈ db.participants.write d.mem d.fields)
    (given : row.stream k = some source) :
    db.Uses row.groupCallId ⟨row.userId, k⟩ source ∨
      d.mem.groupCallId = row.groupCallId ∧ d.mem.userId = row.userId ∧ d.Gives k source := by
  obtain ⟨old, here, rfl⟩ := Participants.mem_write.mp there
  by_cases own : old.id = d.mem.id
  · have member := has.eq_of_id here own
    rw [if_pos (beq_iff_eq.mpr own)] at given ⊢
    rw [stream_merge] at given
    split at given
    · rename_i listed
      exact .inr ⟨(congrArg Prod.fst member).symm, (congrArg Prod.snd member).symm, listed, given⟩
    · exact .inl ⟨old, here, rfl, rfl, given⟩
  · rw [if_neg (by simpa using own)] at given ⊢
    exact .inl ⟨old, here, rfl, rfl, given⟩

theorem uses_of_touches {callId : Nat} {h : Holder} {source : Int} (touches : Touches db t db')
    (fits : t.Fits db) (uses : db'.Uses callId h source) :
    db.Uses callId h source ∨ t.Reserves callId h source := by
  obtain ⟨p, there, call, user, given⟩ := uses
  cases touches with
  | nothing kept =>
    rw [kept] at there
    exact .inl ⟨p, there, call, user, given⟩
  | dismissed which kept =>
    rw [kept] at there
    obtain ⟨row, here, rfl⟩ := Participants.mem_dismiss.mp there
    refine .inl ⟨row, here, ?_⟩
    split at call <;> rename_i chosen
    · rw [if_pos chosen] at user given
      exact ⟨call, user, (stream_gone row h.kind).symm.trans given⟩
    · rw [if_neg chosen] at user given
      exact ⟨call, user, given⟩
  | created v r joinAs chosen turn stage made =>
    obtain ⟨fresh, table⟩ := Participants.create_eq_some made
    rw [table, Table.mem_insert fresh] at there
    rcases there with old | rfl
    · exact .inl ⟨p, old, call, user, given⟩
    · subst turn
      refine .inr ?_
      show v.Reserves callId h source
      rw [Visit.Reserves, stage]
      obtain ⟨userId, k⟩ := h
      obtain rfl : v.userId = userId := user
      cases k with
      | audio => exact ⟨call, rfl, Option.some.inj given⟩
      | video => cases given
      | presentation => cases given
  | saved v d leaves turn stage saved =>
    subst turn
    have has : db.Has d.mem := by
      rw [Pending.Fits, Visit.Fits, stage] at fits
      exact fits.1
    rw [Participants.save_eq_some saved] at there
    obtain ⟨userId, k⟩ := h
    obtain rfl := call
    obtain rfl : p.userId = userId := user
    refine (uses_write has there given).imp_right fun gives => ?_
    show v.Reserves p.groupCallId ⟨p.userId, k⟩ source
    rw [Visit.Reserves, stage]
    exact gives

end Touching

/-! ### Which source is chosen -/

section Choosing

variable {w : Calls} {v : Visit} {seat : Seat} {source : Int} {n : Nat} {now : Int}

theorem mem_taken {db : Db} : source ∈ (takenSources ((db.participants.inCall v.call.id).filter
    fun p => !(p.userId == v.userId))).filter (fun s => !seat.excluded.contains s) ↔
      v.Taken db seat source := by
  rw [List.mem_filter, takenSources, List.mem_flatMap, Visit.Taken, and_comm]
  refine and_congr (by simp) ⟨?_, ?_⟩
  · rintro ⟨p, listed, given⟩
    obtain ⟨there, other⟩ := List.mem_filter.mp listed
    obtain ⟨here, call⟩ := List.mem_filter.mp there
    obtain ⟨k, given⟩ := mem_sources.mp given
    exact ⟨⟨p.userId, k⟩, by simpa using other, p, here, beq_iff_eq.mp call, rfl, given⟩
  · rintro ⟨h, other, p, here, call, user, given⟩
    refine ⟨p, List.mem_filter.mpr ⟨List.mem_filter.mpr ⟨here, beq_iff_eq.mpr call⟩, ?_⟩,
      mem_sources.mpr ⟨h.kind, given⟩⟩
    rw [user]
    simpa using other

theorem eq_of_free (free : v.Free w seat source) (untaken : ¬ v.Taken w.shared.db seat source)
    {h : Holder} (claimed : Claimed w v.call.id h source) : h = ⟨v.userId, seat.kind⟩ := by
  by_contra other
  obtain ⟨unreserved, seen⟩ := free h other
  rcases claimed with uses | reserved
  · exact untaken ⟨(seen uses).2, h, (seen uses).1, uses⟩
  · exact unreserved reserved

/-- A source that is chosen is no other stream's, and no other request has chosen it for one. -/
theorem eq_of_choose (careful : Careful w (.go n now)) (here : w.calls n = some (.visit v))
    (stage : v.stage = .choosing seat) {allocated : Bool}
    (ok : v.choose w.shared seat = .ok (source, allocated)) {h : Holder}
    (claimed : Claimed w v.call.id h source) : h = ⟨v.userId, seat.kind⟩ := by
  obtain ⟨tried, next⟩ := careful v seat here stage
  unfold Visit.choose Db.ensureUniqueSsrc chooseSsrc at ok
  dsimp only at ok
  split at ok
  · rename_i ssrc given
    obtain ⟨checked, ok⟩ := check_bind_eq_ok.mp ok
    cases ok
    have free := require_eq_ok.mp checked
    refine eq_of_free (tried [] source [] (by rw [Seat.tries, given]; rfl) nofun) ?_ claimed
    rw [← mem_taken]
    rwa [Bool.not_eq_true', List.contains_eq_mem, decide_eq_false_iff_not] at free
  · rename_i none
    have tries : seat.tries = seat.ssrc.candidates.take 10 := by
      rw [Seat.tries, none]
      rfl
    split at ok
    · rename_i candidate found
      cases ok
      obtain ⟨free, before, after, split, taken⟩ := List.find?_eq_some_iff_append.mp found
      refine eq_of_free (tried before source after (tries.trans split) fun s earlier => ?_) ?_
        claimed
      · have inTaken := taken s earlier
        rw [Bool.not_not] at inTaken
        exact mem_taken.mp (List.contains_iff_mem.mp (by simpa using inTaken))
      · rw [← mem_taken]
        rwa [Bool.not_eq_true', List.contains_eq_mem, decide_eq_false_iff_not] at free
    · rename_i nothing
      cases ok
      refine next none (fun s listed => ?_) h claimed
      have inTaken := List.find?_eq_none.mp nothing s (tries ▸ listed)
      exact mem_taken.mp (by simpa using inTaken)

end Choosing

/-! ### What a request goes on with -/

def Visit.Chooses (v : Visit) (hall : Hall) (callId : Nat) (h : Holder) (source : Int) : Prop :=
  ∃ seat allocated, v.stage = .choosing seat ∧ v.choose hall seat = .ok (source, allocated) ∧
    v.call.id = callId ∧ h = ⟨v.userId, seat.kind⟩

def Pending.Chooses (hall : Hall) : Pending → Nat → Holder → Int → Prop
  | .visit v => v.Chooses hall
  | _ => fun _ _ _ => False

section Next

variable {env : Env} {hall : Hall} {v : Visit} {t next : Pending} {now : Int} {db : Db}

theorem has_of_covers {d : Draft} {row : GroupCallParticipant} (here : row ∈ db.participants.table)
    (covers : d.Covers row) : db.Has d.mem :=
  ⟨row, here, covers.id.symm, Prod.ext covers.groupCallId.symm covers.userId.symm⟩

theorem active_eq_ok {call : GroupCall} {userId : Nat} {p : GroupCallParticipant}
    (ok : db.requireActiveParticipant call userId = .ok p) :
    p ∈ db.participants.table ∧ p.member = (call.id, userId) := by
  have found := (Option.filter_eq_some_iff.mp (orRaise_eq_ok.mp ok)).1
  obtain ⟨here, callId, user⟩ := Participants.of_eq_some found
  exact ⟨here, Prod.ext callId user⟩

theorem active_of_filter {callId userId : Nat} {p : GroupCallParticipant}
    (found : ((db.participants.of callId userId).filter fun p => !p.left) = some p) :
    p ∈ db.participants.table ∧ p.groupCallId = callId :=
  have of := Participants.of_eq_some (Option.filter_eq_some_iff.mp found).1
  ⟨of.1, of.2.1⟩

theorem resolveParticipant_call {call : GroupCall} {editor : Nat} {target : Target}
    {p : GroupCallParticipant} (ok : db.resolveParticipant call editor target = .ok p) :
    p.groupCallId = call.id := by
  cases target with
  | self => exact (active_of_filter (orRaise_eq_ok.mp ok)).2
  | user userId => exact (active_of_filter (orRaise_eq_ok.mp ok)).2
  | channel channelId =>
    unfold Db.resolveParticipant at ok
    dsimp only at ok
    split at ok
    · cases ok
    · rename_i q only
      cases ok
      have listed : p ∈ (db.participants.inCall call.id).filter fun p =>
          p.joinAsChannelId == some channelId && !p.left := only ▸ List.mem_cons_self
      exact beq_iff_eq.mp (List.mem_filter.mp (List.mem_filter.mp listed).1).2
    · cases ok
  | unknown => cases ok

structure Plain (db : Db) (call : GroupCall) (d : Draft) : Prop where
  silent : d.Silent
  has : db.Has d.mem
  call : d.mem.groupCallId = call.id

theorem plain_of_covers {call : GroupCall} {d : Draft} {p : GroupCallParticipant}
    (silent : d.Silent) (here : p ∈ db.participants.table) (inCall : p.groupCallId = call.id)
    (covers : ∀ row, (Draft.mk p []).Covers row → d.Covers row) : Plain db call d :=
  have whole := covers p (Draft.Covers.start p)
  ⟨silent, has_of_covers here whole, whole.groupCallId.trans inCall⟩

theorem entry_eq_some {r : Request} {stage : Stage} (admitted : v.entry hall r = .ok (some stage)) :
    (∃ seat, stage = .choosing seat ∧ seat.Fits hall.db v.userId v.call.id) ∨
      ∃ d leaves, stage = .saving d leaves ∧ Plain hall.db v.call d := by
  cases r with
  | join r =>
    obtain ⟨-, rest⟩ := check_bind_eq_ok.mp admitted
    obtain ⟨joinAs, -, rest⟩ := (bind_eq_ok _).mp rest
    obtain ⟨-, rest⟩ := check_bind_eq_ok.mp rest
    cases rest
    exact .inl ⟨_, rfl, fun p read => (by cases read)⟩
  | leave =>
    obtain ⟨p, found, rfl⟩ := Option.map_eq_some_iff.mp (Except.ok.inj admitted)
    obtain ⟨here, inCall⟩ := active_of_filter found
    exact .inr ⟨_, _, rfl, plain_of_covers (Draft.silent_start p).leave here inCall
      (Draft.stage_leave _).covers⟩
  | video ssrc payload videoStopped =>
    obtain ⟨p, active, rest⟩ := (bind_eq_ok _).mp admitted
    obtain ⟨here, member⟩ := active_eq_ok active
    cases videoStopped with
    | true =>
      cases rest
      exact .inr ⟨_, _, rfl, plain_of_covers (Draft.silent_start p).stopVideo here
        (congrArg Prod.fst member) (Draft.stage_stopVideo _).covers⟩
    | false =>
      cases rest
      refine .inl ⟨_, rfl, fun q read => ?_⟩
      cases read
      exact ⟨⟨p, here, rfl, rfl⟩, member⟩
  | presentation ssrc payload =>
    obtain ⟨p, active, rest⟩ := (bind_eq_ok _).mp admitted
    obtain ⟨here, member⟩ := active_eq_ok active
    cases rest
    refine .inl ⟨_, rfl, fun q read => ?_⟩
    cases read
    exact ⟨⟨p, here, rfl, rfl⟩, member⟩
  | leavePresentation =>
    obtain ⟨p, active, rest⟩ := (bind_eq_ok _).mp admitted
    obtain ⟨here, member⟩ := active_eq_ok active
    cases rest
    exact .inr ⟨_, _, rfl, plain_of_covers (Draft.silent_start p).stopPresentation here
      (congrArg Prod.fst member) (Draft.stage_stopPresentation _).covers⟩
  | edit e =>
    obtain ⟨p, allowed, rest⟩ := (bind_eq_ok _).mp admitted
    obtain ⟨q, found, checks⟩ := (bind_eq_ok _).mp allowed
    obtain ⟨-, checks⟩ := check_bind_eq_ok.mp checks
    obtain ⟨-, checks⟩ := check_bind_eq_ok.mp checks
    obtain ⟨-, checks⟩ := check_bind_eq_ok.mp checks
    obtain ⟨-, checks⟩ := check_bind_eq_ok.mp checks
    cases checks
    dsimp only at rest
    split at rest
    · cases rest
    · cases rest
      exact .inr ⟨_, _, rfl, plain_of_covers ((Draft.silent_start p).edit _ e)
        (resolveParticipant_eq_ok found) (resolveParticipant_call found)
        (Draft.stage_edit _ _ e).covers⟩

theorem reserves_saving {p : GroupCallParticipant} {d : Draft} (v : Visit) (leaves : Bool)
    (k : Kind) (source : Int) (has : db.Has p) (member : p.member = (v.call.id, v.userId))
    (covers : ∀ row, (Draft.mk p []).Covers row → d.Covers row)
    (gives : ∀ l given, d.Gives l given → l = k ∧ given = source) :
    Visit.Fits db { v with stage := .saving d leaves } ∧
      ∀ callId h given, Visit.Reserves { v with stage := .saving d leaves } callId h given →
        v.call.id = callId ∧ h = ⟨v.userId, k⟩ ∧ source = given := by
  have whole := covers p (Draft.Covers.start p)
  obtain ⟨row, here, named, same⟩ := has
  have inCall : d.mem.groupCallId = v.call.id :=
    whole.groupCallId.trans (congrArg Prod.fst member)
  refine ⟨⟨⟨row, here, named.trans whole.id.symm,
    same.trans (Prod.ext whole.groupCallId.symm whole.userId.symm)⟩, inCall⟩, ?_⟩
  rintro callId ⟨userId, l⟩ given ⟨call, user, given'⟩
  obtain ⟨rfl, rfl⟩ := gives l given given'
  obtain rfl : d.mem.userId = userId := user
  rw [whole.userId]
  exact ⟨inCall.symm.trans call,
    congrArg (Holder.mk · l) (congrArg Prod.snd member), rfl⟩

theorem take_spec {seat : Seat} (env : Env) (source : Int)
    (fits : seat.Fits db v.userId v.call.id) :
    Visit.Fits db { v with stage := seat.take env v.call v.userId source } ∧
      ∀ callId h given,
        Visit.Reserves { v with stage := seat.take env v.call v.userId source } callId h given →
        v.call.id = callId ∧ h = ⟨v.userId, seat.kind⟩ ∧ source = given := by
  cases seat with
  | audio r joinAs => exact ⟨trivial, fun callId h given reserves => reserves⟩
  | video p ssrc payload =>
    exact reserves_saving v _ _ _ (fits p rfl).1 (fits p rfl).2
      (fun _ covers => Draft.covers_startVideo covers _ _ _) fun _ _ => Draft.gives_startVideo
  | presentation p ssrc payload =>
    exact reserves_saving v _ _ _ (fits p rfl).1 (fits p rfl).2
      (fun _ covers => Draft.covers_startPresentation covers _ _ _) fun _ _ => Draft.gives_startPresentation

theorem look_eq_ok {r : Join} {joinAs : Option Nat × Option Nat} {source : Int} {stage : Stage}
    (looked : v.look hall r joinAs source = .ok stage) : stage = .creating r joinAs source ∨
      ∃ p, hall.db.participants.of v.call.id v.userId = some p ∧
        stage = .saving ((Draft.mk p []).rejoin (v.call.joinMuted || r.muted) r.videoStopped joinAs
          source) false := by
  unfold Visit.look at looked
  split at looked
  · cases looked
    exact .inl rfl
  · rename_i p found
    obtain ⟨-, looked⟩ := check_bind_eq_ok.mp looked
    cases looked
    exact .inr ⟨p, found, rfl⟩

theorem next_visit (fits : v.Fits hall.db) (goes : (v.advance env hall now).2 = some next) :
    next.Fits hall.db ∧ ∀ callId h source, next.Reserves callId h source →
      v.Reserves callId h source ∨ v.Chooses hall callId h source := by
  cases stage : v.stage with
  | requiring r =>
    simp only [Visit.advance, stage] at goes
    split at goes
    · cases goes
    · cases goes
    · rename_i admitted
      cases goes
      rcases entry_eq_some admitted with ⟨seat, rfl, seated⟩ | ⟨d, leaves, rfl, plain⟩
      · exact ⟨seated, fun _ _ _ reserves => reserves.elim⟩
      · exact ⟨⟨plain.has, plain.call⟩, fun _ _ _ reserves => absurd reserves.2.2 plain.silent.not_gives⟩
  | choosing seat =>
    have seated : seat.Fits hall.db v.userId v.call.id := by
      rw [Visit.Fits, stage] at fits
      exact fits
    simp only [Visit.advance, stage] at goes
    split at goes
    · cases goes
    · rename_i source allocated chosen
      cases goes
      have new : ∀ callId h given, (v.call.id = callId ∧ h = ⟨v.userId, seat.kind⟩ ∧
          source = given) → v.Chooses hall callId h given := by
        rintro callId h given ⟨call, holder, rfl⟩
        exact ⟨seat, allocated, stage, chosen, call, holder⟩
      split
      · exact ⟨seated, fun callId h given reserves => .inr (new callId h given reserves)⟩
      · have spec := take_spec env source seated
        exact ⟨spec.1, fun callId h given reserves =>
          .inr (new callId h given (spec.2 callId h given reserves))⟩
  | allocating seat source =>
    have seated : seat.Fits hall.db v.userId v.call.id := by
      rw [Visit.Fits, stage] at fits
      exact fits
    simp only [Visit.advance, stage] at goes
    cases goes
    have spec := take_spec env source seated
    refine ⟨spec.1, fun callId h given reserves => .inl ?_⟩
    rw [Visit.Reserves, stage]
    exact spec.2 callId h given reserves
  | looking r joinAs source =>
    simp only [Visit.advance, stage] at goes
    split at goes
    · cases goes
    rename_i looked
    cases goes
    obtain rfl | ⟨p, found, rfl⟩ := look_eq_ok looked
    · refine ⟨trivial, fun callId h given reserves => .inl ?_⟩
      rw [Visit.Reserves, stage]
      exact reserves
    · obtain ⟨here, call, user⟩ := Participants.of_eq_some found
      have spec := reserves_saving v false .audio source ⟨p, here, rfl, rfl⟩ (Prod.ext call user)
        (fun row covers => Draft.covers_rejoin covers (v.call.joinMuted || r.muted) r.videoStopped
          joinAs source) fun _ _ => Draft.gives_rejoin
      refine ⟨spec.1, fun callId h given reserves => .inl ?_⟩
      rw [Visit.Reserves, stage]
      exact spec.2 callId h given reserves
  | creating r joinAs source =>
    simp only [Visit.advance, stage, Visit.create] at goes
    split at goes
    · cases goes
      exact ⟨trivial, fun _ _ _ reserves => reserves.elim⟩
    · cases goes
  | saving d leaves =>
    simp only [Visit.advance, stage, Visit.save] at goes
    split at goes
    · cases goes
      exact ⟨trivial, fun _ _ _ reserves => reserves.elim⟩
    · cases goes
  | bumping leaves =>
    simp only [Visit.advance, stage] at goes
    split at goes
    · cases goes
      exact ⟨trivial, fun _ _ _ reserves => reserves.elim⟩
    · cases goes
  | counting =>
    simp only [Visit.advance, stage] at goes
    split at goes
    · cases goes
      exact ⟨trivial, fun _ _ _ reserves => reserves.elim⟩
    · cases goes
  | discarding =>
    simp only [Visit.advance, stage] at goes
    cases goes

theorem next_advance (fits : t.Fits hall.db) (goes : (t.advance env hall now).2 = some next) :
    next.Fits hall.db ∧ ∀ callId h source, next.Reserves callId h source →
      t.Reserves callId h source ∨ t.Chooses hall callId h source := by
  have plain : ∀ p : Pending, (∀ v, p ≠ .visit v) → p.Fits hall.db ∧ ∀ callId h source,
      p.Reserves callId h source → t.Reserves callId h source ∨ t.Chooses hall callId h source := by
    intro p other
    cases p with
    | visit v => exact absurd rfl (other v)
    | _ => exact ⟨trivial, fun _ _ _ reserves => reserves.elim⟩
  cases t with
  | visit v => exact next_visit fits goes
  | managing call refusal m =>
    simp only [Pending.advance] at goes
    split at goes
    · cases goes
    · split at goes <;> cases goes
      exact plain _ fun _ same => (by cases same)
  | clearing callId => cases goes
  | opening c =>
    simp only [Pending.advance] at goes
    split at goes <;> cases goes <;> exact plain _ fun _ same => (by cases same)
  | dismissing c active =>
    cases goes
    exact plain _ fun _ same => (by cases same)
  | committing c active => cases goes

theorem Seat.Fits.touched {seat : Seat} {userId callId : Nat} {db' : Db}
    (fits : seat.Fits db userId callId) (touches : Touches db t db') :
    seat.Fits db' userId callId :=
  fun p read => ⟨has_of_touches touches (fits p read).1, (fits p read).2⟩

theorem fits_of_touches {db' : Db} (touches : Touches db t db') (fits : next.Fits db) :
    next.Fits db' := by
  cases next with
  | visit v =>
    obtain ⟨userId, call, stage⟩ := v
    cases stage with
    | choosing seat => exact Seat.Fits.touched fits touches
    | allocating seat source => exact Seat.Fits.touched fits touches
    | saving d leaves => exact ⟨has_of_touches touches fits.1, fits.2⟩
    | _ => trivial
  | _ => trivial

end Next

/-! ### No error of the database for a source -/

section Endings

variable {env : Env} {hall : Hall} {v : Visit} {now : Int}

/-- The streams of a state and what a request has chosen are told apart by their sources. -/
def Alone (db : Db) (t : Pending) : Prop :=
  ∀ callId h h' source, (db.Uses callId h source ∨ t.Reserves callId h source) →
    (db.Uses callId h' source ∨ t.Reserves callId h' source) → h = h'

theorem create_eq_none {ps : Participants} {p : GroupCallParticipant}
    (refused : ps.create p = none) :
    p.member ∈ ps.table.rows.map GroupCallParticipant.member ∨
      p.audio ∈ ps.table.rows.map GroupCallParticipant.audio := by
  unfold Participants.create at refused
  dsimp only at refused
  split at refused
  · rename_i taken
    exact ((Bool.or_eq_true _ _).mp taken).imp Table.any_beq_iff.mp Table.any_beq_iff.mp
  · cases refused

theorem save_isSome {db : Db} {d : Draft} {leaves : Bool} (stage : v.stage = .saving d leaves)
    (has : db.Has d.mem) (alone : Alone db (.visit v)) :
    db.participants.save d.mem d.fields ≠ none := by
  have claim : ∀ row ∈ db.participants.write d.mem d.fields,
      db.Uses row.groupCallId ⟨row.userId, .audio⟩ row.source ∨
        Pending.Reserves (.visit v) row.groupCallId ⟨row.userId, .audio⟩ row.source := by
    intro row there
    have own : row.stream .audio = some row.source := rfl
    refine (uses_write has there own).imp_right fun gives => ?_
    show v.Reserves _ _ _
    rw [Visit.Reserves, stage]
    exact gives
  have distinct : ((db.participants.write d.mem d.fields).rows.map
      GroupCallParticipant.audio).Nodup := by
    refine List.Nodup.map_on ?_ (List.Nodup.of_map _ (db.participants.write d.mem d.fields).unique)
    intro row here other there same
    have calls : row.groupCallId = other.groupCallId := congrArg Prod.fst same
    have sources : row.source = other.source := congrArg Prod.snd same
    have first := claim row here
    rw [calls, sources] at first
    have user := alone _ _ _ _ first (claim other there)
    have members : ((db.participants.write d.mem d.fields).rows.map
        GroupCallParticipant.member).Nodup := by
      rw [Participants.members_write]
      exact db.participants.members
    have member : row.member = other.member :=
      Prod.ext calls (congrArg Holder.userId user)
    exact List.inj_on_of_nodup_map members here there member
  rw [Participants.save, dif_pos distinct]
  exact Option.some_ne_none _

theorem create_ending {r : Join} {joinAs : Option Nat × Option Nat} {source : Int} {db : Db}
    (stage : v.stage = .creating r joinAs source) (alone : Alone db (.visit v))
    (refused : db.participants.create (r.participant v.call v.userId joinAs source) = none) :
    (db.participants.table.rows.any fun q =>
      q.member == (r.participant v.call v.userId joinAs source).member) = true := by
  rw [Table.any_beq_iff]
  rcases create_eq_none refused with member | audio
  · exact member
  · obtain ⟨row, here, same⟩ := List.mem_map.mp audio
    have call : row.groupCallId = v.call.id := congrArg Prod.fst same
    have used : db.Uses v.call.id ⟨row.userId, .audio⟩ source :=
      ⟨row, here, call, rfl, congrArg some (congrArg Prod.snd same)⟩
    have reserved : Pending.Reserves (.visit v) v.call.id ⟨v.userId, .audio⟩ source := by
      show v.Reserves _ _ _
      rw [Visit.Reserves, stage]
      exact ⟨rfl, rfl, rfl⟩
    have user := congrArg Holder.userId (alone _ _ _ _ (.inl used) (.inr reserved))
    exact List.mem_map.mpr ⟨row, here, Prod.ext call user⟩

theorem endings_visit (fits : v.Fits hall.db) (alone : Alone hall.db (.visit v)) (env : Env)
    (now : Int) : (v.advance env hall now).1.endings = hall.endings ∨
      ∃ ending, ending ≠ .sourceTaken ∧
        (v.advance env hall now).1.endings = hall.endings ++ [ending] := by
  cases stage : v.stage with
  | requiring r =>
    simp only [Visit.advance, stage]
    split
    · exact .inr ⟨_, Ending.noConfusion, rfl⟩
    · exact .inr ⟨_, Ending.noConfusion, rfl⟩
    · exact .inl rfl
  | choosing seat =>
    simp only [Visit.advance, stage]
    split
    · exact .inr ⟨_, Ending.noConfusion, rfl⟩
    · exact .inl rfl
  | allocating seat source => exact .inl (by simp only [Visit.advance, stage])
  | looking r joinAs source =>
    simp only [Visit.advance, stage]
    split
    · exact .inr ⟨_, Ending.noConfusion, rfl⟩
    · exact .inl rfl
  | creating r joinAs source =>
    simp only [Visit.advance, stage, Visit.create]
    split
    · exact .inl rfl
    · rename_i refused
      have taken := create_ending stage alone refused
      refine .inr ⟨.memberTaken, Ending.noConfusion, ?_⟩
      rw [if_pos taken]
      rfl
  | saving d leaves =>
    have has : hall.db.Has d.mem := by
      rw [Visit.Fits, stage] at fits
      exact fits.1
    simp only [Visit.advance, stage, Visit.save]
    split
    · exact .inl rfl
    · rename_i refused
      exact absurd refused (save_isSome stage has alone)
  | bumping leaves =>
    simp only [Visit.advance, stage]
    split
    · exact .inl rfl
    · exact .inr ⟨_, Ending.noConfusion, rfl⟩
  | counting =>
    simp only [Visit.advance, stage]
    split
    · exact .inl rfl
    · exact .inr ⟨_, Ending.noConfusion, rfl⟩
  | discarding =>
    simp only [Visit.advance, stage]
    exact .inr ⟨_, Ending.noConfusion, rfl⟩

theorem endings_advance {t : Pending} (fits : t.Fits hall.db) (alone : Alone hall.db t) (env : Env)
    (now : Int) : (t.advance env hall now).1.endings = hall.endings ∨
      ∃ ending, ending ≠ .sourceTaken ∧
        (t.advance env hall now).1.endings = hall.endings ++ [ending] := by
  cases t with
  | visit v => exact endings_visit fits alone env now
  | managing call refusal m =>
    simp only [Pending.advance]
    split
    · exact .inr ⟨_, Ending.noConfusion, rfl⟩
    · split
      · exact .inl rfl
      · exact .inr ⟨_, Ending.noConfusion, rfl⟩
  | clearing callId => exact .inr ⟨_, Ending.noConfusion, rfl⟩
  | opening c =>
    simp only [Pending.advance]
    split
    · exact .inr ⟨_, Ending.noConfusion, rfl⟩
    · exact .inl rfl
    · exact .inl rfl
  | dismissing c active => exact .inl rfl
  | committing c active =>
    refine .inr ⟨.answered, Ending.noConfusion, ?_⟩
    cases active <;> rfl

end Endings

end Piltover.GroupCalls
