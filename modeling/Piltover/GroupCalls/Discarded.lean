/- source: piltover/app/handlers/group_calls.py, piltover/app/utils/group_calls.py,
     piltover/db/models/group_call.py
   digest: In every order of careful turns, discarded calls stay so and versions go up. -/

import Piltover.GroupCalls.Lifecycle

set_option autoImplicit false

namespace Piltover.GroupCalls.Lifecycle

open Piltover.Foundation
open Piltover.Foundation.Runs
open Piltover.Foundation.Interleaved

/-! ### Steps -/

section Steps

variable {env : Env} {w w' : Calls} {e : Happening}

theorem sound_of_begins (begins : Begins w) : Sound w := by
  refine ⟨fun n t here => ?_, fun n t here => ?_, begins.active, fun call here closed => ?_,
    begins.recorded⟩
  · rw [begins.idle n] at here
    cases here
  · rw [begins.idle n] at here
    cases here
  · exact .inl (begins.empty call here closed)

theorem loaded_of_getFromInputRaise {db : Db} {callId : Nat} {call : GroupCall}
    (ok : db.getFromInputRaise callId = .ok call) : Loaded db call := by
  obtain ⟨found, got, rest⟩ := orRaise_bind_eq_ok.mp ok
  obtain ⟨open', rest⟩ := check_bind_eq_ok.mp rest
  cases rest
  obtain rfl := (Table.get_eq_some_iff.mp got).2
  exact ⟨call, got, Nat.le_refl _, fun _ => Option.isNone_iff_eq_none.mp (require_eq_ok.mp open')⟩

theorem begin_spec (hall : Hall) (asked : Asked) :
    (asked.begin hall).1.db = hall.db ∧ (asked.begin hall).1.changes = hall.changes ∧
      ∀ next, (asked.begin hall).2 = some next → next.Fits hall.db ∧ Knows hall.db next := by
  cases asked with
  | participate userId callId r =>
    simp only [Asked.begin]
    split
    · exact ⟨rfl, rfl, fun next goes => (by cases goes)⟩
    · rename_i call ok
      refine ⟨rfl, rfl, fun next goes => ?_⟩
      cases goes
      exact ⟨trivial, knows_visit (loaded_of_getFromInputRaise ok) Stage.noConfusion⟩
  | manage callId refusal m =>
    simp only [Asked.begin]
    split
    · exact ⟨rfl, rfl, fun next goes => (by cases goes)⟩
    · rename_i call ok
      refine ⟨rfl, rfl, fun next goes => ?_⟩
      cases goes
      exact ⟨trivial, knows_managing (loaded_of_getFromInputRaise ok)⟩
  | create refusal c =>
    cases refusal with
    | some failure => exact ⟨rfl, rfl, fun next goes => (by cases goes)⟩
    | none =>
      refine ⟨rfl, rfl, fun next goes => ?_⟩
      cases goes
      exact ⟨trivial, knows_of_none rfl⟩

/-- What a careful turn does, for all that follows. -/
structure Turn (env : Env) (w : Calls) (n : Nat) (t : Pending) (now : Int) : Prop where
  here : w.calls n = some t
  safe : ready w.shared.db t = true
  effect : Effect w.shared t (t.advance env w.shared now)
  grows : Grows w.shared.db (t.advance env w.shared now).1.db
  apart : ∀ callId, enters t = some callId → ∀ m s, w.calls m = some s → closes s ≠ some callId

theorem turn_of_careful {n : Nat} {t : Pending} {now : Int} (sound : Sound w)
    (careful : Careful w (.go n now)) (here : w.calls n = some t) (env : Env) :
    Turn env w n t now := by
  obtain ⟨safe, apart⟩ := careful t here
  have effect := effect_advance safe env now
  exact ⟨here, safe, effect, grows_of_effect effect (sound.knows n t here).loaded safe, apart⟩

section Turns

variable {n : Nat} {t : Pending} {now : Int}

theorem Turn.present (turn : Turn env w n t now) (sound : Sound w) {callId : Nat}
    (closed : enters t ≠ some callId) :
    ∀ p ∈ (t.advance env w.shared now).1.db.present callId,
      ∃ q ∈ w.shared.db.present callId, q.id = p.id := by
  intro p there
  exact (present_of_touches (touches_advance env w.shared now t) (sound.fits n t turn.here)
    there).resolve_left closed

theorem Turn.not_enters (turn : Turn env w n t now) {call : GroupCall}
    (here : call ∈ w.shared.db.calls) (closed : call.discardedAt ≠ none) :
    enters t ≠ some call.id := fun entering =>
  closed (not_discarded_of_opened (opened_of_enters turn.safe entering) here)

theorem Turn.knows (turn : Turn env w n t now) (sound : Sound w) {m : Nat} {s : Pending}
    (there : (w.turn n (t.advance env w.shared now)).calls m = some s) :
    Knows (t.advance env w.shared now).1.db s := by
  rcases World.calls_turn_cases there with ⟨-, goes⟩ | ⟨-, before⟩
  · exact next_knows (sound.knows n t turn.here) turn.safe goes
  · refine (sound.knows m s before).kept turn.grows fun callId closing => ?_
    exact turn.present sound fun entering => turn.apart callId entering m s before closing

/-- A call that is discarded was so before, or nobody is in it any more, or the request that has
discarded it is about to dismiss who is. -/
theorem Turn.discarded (turn : Turn env w n t now) (sound : Sound w) {call' : GroupCall}
    (here : call' ∈ (t.advance env w.shared now).1.db.calls) (closed : call'.discardedAt ≠ none) :
    (∃ call ∈ w.shared.db.calls, call.id = call'.id ∧ call.discardedAt ≠ none) ∨
      (t.advance env w.shared now).1.db.present call'.id = [] ∨
      ∃ copy refusal, t = .managing copy refusal .discard ∧
        Management.discard.check copy refusal = .ok () ∧ copy.id = call'.id ∧
        (t.advance env w.shared now).2 = some (.clearing call'.id) := by
  have got' := Table.mem_iff_get.mp here
  cases got : w.shared.db.calls.get call'.id with
  | none => exact absurd got (not_new_of_effect turn.effect here closed)
  | some call =>
    obtain ⟨old, named⟩ := Table.get_eq_some_iff.mp got
    by_cases before : call.discardedAt = none
    · rcases discards_of_effect turn.effect got before got' closed with closing | discards
      · refine .inr (.inl (List.eq_nil_iff_forall_not_mem.mpr fun p there => ?_))
        have knows := (sound.knows n t turn.here).closing call'.id closing
        cases t with
        | visit v =>
          obtain ⟨userId, copy, stage⟩ := v
          cases stage with
          | discarding =>
            obtain ⟨q, present, -⟩ := turn.present sound (fun entering => (by cases entering)) p there
            exact absurd (knows q present) List.not_mem_nil
          | _ => cases closing
        | committing c active =>
          cases active with
          | none => cases closing
          | some found =>
            obtain ⟨active, ids⟩ := found
            obtain ⟨gone, present⟩ := present_committed there
            exact gone (knows p present)
        | _ => cases closing
      · exact .inr (.inr discards)
    · exact .inl ⟨call, old, named, before⟩

theorem Turn.left (turn : Turn env w n t now) (sound : Sound w) {call : GroupCall}
    (here : call ∈ w.shared.db.calls) (closed : call.discardedAt ≠ none)
    (nobody : w.shared.db.present call.id = []) :
    (t.advance env w.shared now).1.db.present call.id = [] := by
  refine List.eq_nil_iff_forall_not_mem.mpr fun p there => ?_
  obtain ⟨q, present, -⟩ := turn.present sound (turn.not_enters here closed) p there
  exact absurd (nobody ▸ present) List.not_mem_nil

theorem sound_turn (turn : Turn env w n t now) (sound : Sound w) :
    Sound (w.turn n (t.advance env w.shared now)) := by
  have fits := sound.fits n t turn.here
  have touches := touches_advance env w.shared now t
  refine ⟨fun m s there => ?_, fun m s there => turn.knows sound there,
    oneActive_of_effect turn.effect sound.active (sound.knows n t turn.here) turn.safe,
    fun call' here closed => ?_, ?_⟩
  · rcases World.calls_turn_cases there with ⟨-, goes⟩ | ⟨-, before⟩
    · exact fits_of_touches touches (next_advance fits goes).1
    · exact fits_of_touches touches (sound.fits m s before)
  · rcases turn.discarded sound here closed with ⟨call, old, named, before⟩ | nobody |
      ⟨copy, refusal, -, -, -, goes⟩
    · rw [← named]
      rcases sound.empty call old before with nobody | ⟨m, clearing⟩
      · exact .inl (turn.left sound old before nobody)
      · by_cases own : m = n
        · subst own
          cases turn.here.symm.trans clearing
          refine .inl (List.eq_nil_iff_forall_not_mem.mpr fun p there => ?_)
          exact present_cleared env now there
        · exact .inr ⟨m, (World.calls_turn_ne own).trans clearing⟩
    · exact .inl nobody
    · exact .inr ⟨n, World.calls_turn_self.trans goes⟩
  · obtain ⟨more, sends⟩ := sends_of_effect turn.effect (sound.knows n t turn.here).loaded turn.safe
    exact recorded_of_sends sound.recorded turn.grows sends

theorem lawful_turn (turn : Turn env w n t now) (sound : Sound w) :
    Lawful w (w.turn n (t.advance env w.shared now)) := by
  constructor
  · intro call here closed
    obtain ⟨call', got, follows⟩ := turn.grows call.id call (Table.mem_iff_get.mp here)
    obtain ⟨there, named⟩ := Table.get_eq_some_iff.mp got
    obtain ⟨closed', started⟩ := follows.closed closed
    exact ⟨⟨call', there, named, closed', started⟩,
      turn.present sound (turn.not_enters here closed)⟩
  · obtain ⟨more, sends⟩ := sends_of_effect turn.effect (sound.knows n t turn.here).loaded turn.safe
    refine ⟨more, sends.changes, fun a here call there named => sends.above a here call ?_⟩
    exact named ▸ Table.mem_iff_get.mp there

theorem nobodyLeft_turn (turn : Turn env w n t now) (sound : Sound w) (nobody : NobodyLeft w)
    (vacant : Vacant w (.go n now)) : NobodyLeft (w.turn n (t.advance env w.shared now)) := by
  intro call' here closed
  rcases turn.discarded sound here closed with ⟨call, old, named, before⟩ | gone |
    ⟨copy, refusal, rfl, checked, named, -⟩
  · exact named ▸ turn.left sound old before (nobody call old before)
  · exact gone
  · refine List.eq_nil_iff_forall_not_mem.mpr fun p there => ?_
    obtain ⟨q, present, -⟩ := turn.present sound (fun entering => (by cases entering)) p there
    rw [← named, vacant copy refusal turn.here checked] at present
    exact absurd present List.not_mem_nil

end Turns

theorem begin_turn {n : Nat} {asked : Asked} {now : Int} {m : Nat} {s : Pending}
    (there : (w.turn n ((visiting env).begin w.shared asked now)).calls m = some s) :
    (s.Fits w.shared.db ∧ Knows w.shared.db s) ∨ w.calls m = some s := by
  rcases World.calls_turn_cases there with ⟨-, goes⟩ | ⟨-, before⟩
  · exact .inl ((begin_spec w.shared asked).2.2 s goes)
  · exact .inr before

theorem sound_step (sound : Sound w) (careful : Careful w e)
    (happens : (visiting env).step w e = some w') : Sound w' := by
  rcases Machine.step_cases happens with ⟨n, asked, now, rfl, free, rfl⟩ |
    ⟨n, now, t, rfl, here, rfl⟩ | ⟨other, -, -⟩
  · obtain ⟨same, changes, -⟩ := begin_spec w.shared asked
    have db : (w.turn n ((visiting env).begin w.shared asked now)).shared.db = w.shared.db := same
    refine ⟨fun m s there => ?_, fun m s there => ?_, ?_, fun call there closed => ?_, ?_⟩
    · rw [db]
      rcases begin_turn there with ⟨fits, -⟩ | before
      · exact fits
      · exact sound.fits m s before
    · rw [db]
      rcases begin_turn there with ⟨-, knows⟩ | before
      · exact knows
      · exact sound.knows m s before
    · rw [db]
      exact sound.active
    · rw [db] at there ⊢
      refine (sound.empty call there closed).imp_right fun ⟨m, clearing⟩ => ⟨m, ?_⟩
      rw [World.calls_turn_ne]
      · exact clearing
      · rintro rfl
        rw [free] at clearing
        cases clearing
    · have changes : (w.turn n ((visiting env).begin w.shared asked now)).shared.changes =
        w.shared.changes := changes
      exact ⟨changes ▸ sound.recorded.sorted, fun a listed => db ▸ sound.recorded.known a (changes ▸ listed)⟩
  · exact sound_turn (turn_of_careful sound careful here env) sound
  · exact other.elim

theorem lawful_step (sound : Sound w) (careful : Careful w e)
    (happens : (visiting env).step w e = some w') : Lawful w w' := by
  rcases Machine.step_cases happens with ⟨n, asked, now, rfl, -, rfl⟩ |
    ⟨n, now, t, rfl, here, rfl⟩ | ⟨other, -, -⟩
  · obtain ⟨same, changes, -⟩ := begin_spec w.shared asked
    have db : (w.turn n ((visiting env).begin w.shared asked now)).shared.db = w.shared.db := same
    refine ⟨fun call there closed => ⟨⟨call, db ▸ there, rfl, closed, rfl⟩, fun p present => ?_⟩,
      [], changes.trans (List.append_nil _).symm, fun _ listed => absurd listed List.not_mem_nil⟩
    exact ⟨p, db ▸ present, rfl⟩
  · exact lawful_turn (turn_of_careful sound careful here env) sound
  · exact other.elim

theorem emptyOnly_step (sound : Sound w) : EmptyOnly w e w' := by
  rintro n now ⟨userId, call, stage⟩ rfl here discarding
  obtain rfl : stage = .discarding := discarding
  have knows := (sound.knows n _ here).closing call.id rfl
  exact List.eq_nil_iff_forall_not_mem.mpr fun p present => List.not_mem_nil (knows p present)

theorem nobodyLeft_step (sound : Sound w) (nobody : NobodyLeft w) (careful : Careful w e)
    (vacant : Vacant w e) (happens : (visiting env).step w e = some w') : NobodyLeft w' := by
  rcases Machine.step_cases happens with ⟨n, asked, now, rfl, -, rfl⟩ |
    ⟨n, now, t, rfl, here, rfl⟩ | ⟨other, -, -⟩
  · have db : (w.turn n ((visiting env).begin w.shared asked now)).shared.db = w.shared.db :=
      (begin_spec w.shared asked).1
    unfold NobodyLeft
    rw [db]
    exact nobody
  · exact nobodyLeft_turn (turn_of_careful sound careful here env) sound nobody vacant
  · exact other.elim

theorem getActive_eq_ok (db : Db) (chat : Nat) (one : OneActive db) :
    ∃ found, db.getActive chat = .ok found := by
  unfold Db.getActive
  split
  · exact ⟨none, rfl⟩
  · exact ⟨_, rfl⟩
  · rename_i rest none' single
    exfalso
    have nodup := (List.Nodup.of_map _ db.calls.unique).filter
      fun c : GroupCall => c.chat == chat && c.discardedAt.isNone
    have active : ∀ c ∈ db.calls.rows.filter
        (fun c => c.chat == chat && c.discardedAt.isNone),
        c ∈ db.calls ∧ c.chat = chat ∧ c.discardedAt = none := by
      intro c listed
      obtain ⟨here, fits⟩ := List.mem_filter.mp listed
      obtain ⟨own, open'⟩ := Bool.and_eq_true_iff.mp fits
      exact ⟨Table.mem_def.mpr here, beq_iff_eq.mp own, Option.isNone_iff_eq_none.mp open'⟩
    cases rows : db.calls.rows.filter fun c => c.chat == chat && c.discardedAt.isNone with
    | nil => exact none' rows
    | cons c more =>
      cases more with
      | nil => exact single c rows
      | cons d more =>
        rw [rows] at nodup active
        obtain ⟨here, chat', open'⟩ := active c List.mem_cons_self
        obtain ⟨there, chat'', open''⟩ := active d (List.mem_cons_of_mem _ List.mem_cons_self)
        obtain rfl := one c here d there open' open'' (chat'.trans chat''.symm)
        exact (List.nodup_cons.mp nodup).1 List.mem_cons_self

theorem proper_of_sound (sound : Sound w) : Proper w :=
  ⟨fun chat => getActive_eq_ok w.shared.db chat sound.active, sound.empty, sound.recorded.sorted⟩

end Steps

section Runs

variable {env : Env} {w : Calls} {es : List Happening}

end Runs

/-! ### Checks along concrete runs -/

/-- `Careful`, checked for the calls with numbers below `n`. -/
def carefully (n : Nat) (w : Calls) : Happening → Bool
  | .go call _ => (w.calls call).all fun t => ready w.shared.db t &&
      (enters t).all fun callId => Machine.allCalls n w fun _ s => closes s != some callId
  | _ => true

theorem careful_of_carefully {n : Nat} {w : Calls} {e : Happening} (below : Machine.Below n w)
    (checked : carefully n w e = true) : Careful w e := by
  cases e with
  | start call asked now => trivial
  | go call now =>
    intro t here
    rw [carefully, here, Option.all_some, Bool.and_eq_true] at checked
    refine ⟨checked.1, fun callId entering m s there => ?_⟩
    have free := checked.2
    rw [entering, Option.all_some] at free
    exact bne_iff_ne.mp ((Machine.allCalls_iff below).mp free m s there)
  | other what => trivial

/-- `Vacant` can be checked. -/
def vacantly (w : Calls) : Happening → Bool
  | .go call _ => (w.calls call).all fun t => match t with
      | .managing call _ .discard => (w.shared.db.present call.id).isEmpty
      | _ => true
  | _ => true

theorem vacant_of_vacantly {w : Calls} {e : Happening} (checked : vacantly w e = true) :
    Vacant w e := by
  cases e with
  | start call asked now => trivial
  | go call now =>
    intro copy refusal here _
    rw [vacantly, here, Option.all_some] at checked
    exact List.isEmpty_iff.mp checked
  | other what => trivial

private def pianist : GroupCallParticipant where
  id := 1
  groupCallId := 1
  userId := 5
  joinAsUserId := some 5
  joinAsChannelId := none
  source := 700
  muted := false
  mutedByAdmin := false
  volume := defaultGroupCallVolume
  volumeByAdmin := false
  videoStopped := true
  videoSource := none
  presentationSource := none
  videoEndpoint := none
  presentationEndpoint := none
  videoSourceGroups := none
  presentationSourceGroups := none
  videoPaused := false
  presentationPaused := false
  raiseHandRating := none
  left := false

private def recital : Calls where
  shared := {
    db := {
      calls := ⟨[⟨1, some 0, none, none, false, none, 1, 1, 1, none, 4⟩], by decide⟩
      participants := ⟨⟨[pianist], by decide⟩, by decide, by decide⟩ }
    changes := []
    endings := [] }
  calls := fun _ => none

private theorem recital_begins : Begins recital := by
  have only : ∀ {c : GroupCall}, c ∈ recital.shared.db.calls →
      c = ⟨1, some 0, none, none, false, none, 1, 1, 1, none, 4⟩ := fun here =>
    List.mem_singleton.mp (Table.mem_def.mp here)
  refine ⟨fun _ => rfl, fun c here d there _ _ _ => (only here).trans (only there).symm,
    fun call here closed => ?_, List.Pairwise.nil, fun _ listed => absurd listed List.not_mem_nil⟩
  rw [only here] at closed
  exact absurd rfl closed

/-- A listener joins, the pianist leaves, then the listener, and another call is created. -/
private def programme : List Happening :=
  [.start 0 (.participate 6 1 (.join ⟨.self, true, true, none, ⟨some 800, []⟩⟩)) 0,
    .go 0 0, .go 0 0, .go 0 0, .go 0 0, .go 0 0,
    .start 1 (.participate 5 1 .leave) 1, .go 1 1, .go 1 1, .go 1 1,
    .start 0 (.participate 6 1 .leave) 2, .go 0 2, .go 1 2, .go 0 2, .go 0 2, .go 0 2, .go 0 3,
    .start 1 (.create none ⟨4, "Salon", false, none, none⟩) 4, .go 1 4, .go 1 4]

example : (runFrom (visiting ⟨"::1"⟩).step recital programme).map (fun w =>
    (w.shared.db.calls.rows.map fun c => (c.discardedAt, c.version), w.shared.changes)) =
  some ([(some 3, 5), (none, 1)], [⟨1, 2⟩, ⟨1, 3⟩, ⟨1, 4⟩, ⟨1, 5⟩, ⟨2, 1⟩]) := by
  decide +kernel

private def twoTitles : List Happening :=
  [.start 0 (.manage 1 none (.title "Nocturne")) 0, .start 1 (.manage 1 none (.title "Étude")) 0,
    .go 0 0, .go 1 0]

private theorem twoTitles_changes : ∃ w,
    runFrom (visiting ⟨"::1"⟩).step recital twoTitles = some w ∧
      w.shared.changes = [⟨1, 2⟩, ⟨1, 2⟩] := by
  refine ⟨_, rfl, ?_⟩
  decide +kernel

end Piltover.GroupCalls.Lifecycle
