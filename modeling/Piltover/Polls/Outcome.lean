/- source: piltover/app/handlers/messages/polls.py
   digest: Votes stay well formed as long as requests store them where the user has none left. -/

import Piltover.Polls.WellFormed

set_option autoImplicit false

namespace Piltover.Polls

open Piltover.Foundation
open Piltover.Foundation.Runs
open Piltover.Foundation.Interleaved

/-! ### What every step keeps -/

section Steps

theorem logged_congr {db db' : Db} (accepted : db'.accepted = db.accepted)
    (multiple : ∀ pollId, db'.multiple pollId = db.multiple pollId) (logged : Logged db) :
    Logged db' := by
  intro a here one
  rw [multiple] at one
  exact logged a (accepted ▸ here) one

theorem evolves_disturb (db : Db) (what : Disturbance) : Evolves db (db.disturb what) := by
  cases what with
  | close pollId =>
    exact evolves_of_same rfl rfl fun other =>
      multiple_modify other Poll.close (fun p => p.id == pollId) (fun _ => rfl) fun _ => rfl
  | tick now => exact evolves_of_same rfl rfl fun _ => rfl

theorem accepted_disturb (db : Db) (what : Disturbance) :
    (db.disturb what).accepted = db.accepted := by
  cases what <;> rfl

theorem votes_disturb (db : Db) (what : Disturbance) : (db.disturb what).votes = db.votes := by
  cases what <;> rfl

theorem check_of_begin {db : Db} {r : SendVote} {c : Call} (goes : (r.begin db).2 = some c) :
    r.check db = .ok c := by
  change (r.check db).toOption = some c at goes
  cases checked : r.check db with
  | error e =>
    rw [checked] at goes
    cases goes
  | ok d =>
    rw [checked] at goes
    cases goes
    rfl

theorem obeys_voting : Machine.Obeys voting Logged (fun db c => c.Fits db) Careful where
  begin := by
    intro w call r _ holds _
    exact ⟨holds.inv, fun c goes => (check_eq_ok (check_of_begin goes)).1, fun _ fits => fits⟩
  advance := by
    intro w call c _ holds here careful
    have fits := holds.fits call c here
    have evolves := evolves_advance fits (careful c here)
    exact ⟨logged_advance holds.inv fits evolves, fun next goes => fits_advance fits evolves goes,
      fun _ old => old.evolves evolves⟩
  disturb := by
    intro w what holds _
    have evolves := evolves_disturb w.shared what
    exact ⟨logged_congr (accepted_disturb w.shared what) evolves.multiple holds.inv,
      fun _ goes => (by cases goes), fun _ old => old.evolves evolves⟩

end Steps

/-- What is true between the turns of requests. -/
structure Sound (w : Requests) : Prop where
  holds : Machine.Holds Logged (fun db c => c.Fits db) w
  explained : ∀ userId pollId, Explained w userId pollId

section Kept

variable {w w' : Requests} {call : Nat} {c : Call} {r : SendVote} {userId pollId : Nat}

theorem explained_begin (explained : Explained w userId pollId) (free : w.calls call = none) :
    Explained (w.turn call (r.begin w.shared)) userId pollId := by
  refine explained.plain rfl (fun _ old => old) (fun _ old => old) ?_ ?_ ?_
  · rintro chosen ⟨d, there, -⟩
    rw [free] at there
    cases there
  · rintro ⟨d, chosen, there, -⟩
    rw [free] at there
    cases there
  · rintro chosen ⟨d, goes, -, telling⟩
    rcases (check_eq_ok (check_of_begin goes)).2 with stage | ⟨options, stage⟩ <;>
      rw [stage] at telling <;> cases telling

theorem explained_disturb (what : Disturbance) (explained : Explained w userId pollId) :
    Explained { w with shared := w.shared.disturb what } userId pollId := by
  have same : (w.shared.disturb what).chosenBy userId pollId = w.shared.chosenBy userId pollId :=
    congrArg _ (votesOf_congr (votes_disturb w.shared what) (evolves_disturb w.shared what).answers)
  unfold Explained Tells at explained ⊢
  rwa [same, accepted_disturb]

theorem sound_step {e : Event SendVote Unit Disturbance} (sound : Sound w) (careful : Careful w e)
    (happens : voting.step w e = some w') : Sound w' := by
  refine ⟨Machine.holds_step obeys_voting sound.holds careful happens, fun userId pollId => ?_⟩
  have explained := sound.explained userId pollId
  rcases Machine.step_cases happens with ⟨call, r, _, rfl, free, rfl⟩ |
    ⟨call, _, c, rfl, here, rfl⟩ | ⟨what, rfl, rfl⟩
  · exact explained_begin explained free
  · have fits := sound.holds.fits call c here
    by_cases own : userId = c.userId ∧ pollId = c.pollId
    · obtain ⟨rfl, rfl⟩ := own
      exact explained_advance_self explained here fits (careful c here)
    · exact explained_advance_other explained here fits own
  · exact explained_disturb what explained

theorem sound_of_begins (begins : Begins w) : Sound w := by
  have nobody : ∀ userId pollId, w.shared.chosenBy userId pollId = [] := by
    intro userId pollId
    rw [Db.chosenBy, Db.votesOf, begins.votes]
    rfl
  have idle : ∀ call c, w.calls call ≠ some c := by
    intro call c here
    rw [begins.idle call] at here
    cases here
  refine ⟨⟨?_, fun call c here => absurd here (idle call c)⟩, fun userId pollId => ?_⟩
  · intro a here
    rw [begins.accepted] at here
    cases here
  · refine .inr ⟨nobody userId pollId, .inl fun chosen tells => ?_⟩
    rcases tells with listed | ⟨call, d, here, -⟩
    · rw [begins.accepted] at listed
      cases listed
    · exact idle call d here

theorem length_le_of_tells {chosen : List Nat} (sound : Sound w)
    (one : w.shared.multiple pollId = some false) (tells : Tells w userId pollId chosen) :
    chosen.length ≤ 1 := by
  rcases tells with listed | ⟨call, c, here, both, telling⟩
  · exact sound.holds.inv _ listed one
  · have fits := sound.holds.fits call c here
    rw [Call.Fits, telling, both.2] at fits
    exact fits.single one

theorem wellFormed_of_sound (sound : Sound w) : WellFormed w where
  distinct := fun userId pollId => chosenBy_nodup w.shared userId pollId
  single := by
    intro userId pollId one
    rcases sound.explained userId pollId with tells | ⟨none', -⟩
    · exact length_le_of_tells sound one tells
    · rw [none']
      exact Nat.zero_le _
  accepted := by
    intro userId pollId quiet
    have ended : ∀ chosen, Tells w userId pollId chosen →
        ⟨userId, pollId, chosen⟩ ∈ w.shared.accepted := by
      rintro chosen (listed | ⟨call, c, here, both, -⟩)
      · exact listed
      · exact absurd both (quiet call c here)
    rcases sound.explained userId pollId with tells | ⟨none', silent | ⟨call, c, _, here, both, -⟩⟩
    · exact .inl (ended _ tells)
    · exact .inr ⟨none', fun chosen listed => silent chosen (.inl listed)⟩
    · exact absurd both (quiet call c here)

end Kept

/-! ### What every step leaves of closed polls, and how it counts -/

section Closed

variable {db : Db} {c : Call} {userId pollId : Nat}

theorem votesOf_advance_closed (fits : c.Fits db) (careful : c.careful db = true)
    (closed : db.isOpen pollId = false) :
    (c.advance db).1.votesOf userId pollId = db.votesOf userId pollId := by
  by_cases own : userId = c.userId ∧ pollId = c.pollId
  · obtain ⟨rfl, rfl⟩ := own
    unfold Call.advance
    cases stage : c.stage with
    | answers options => rfl
    | listing chosen =>
      dsimp only
      split <;> rfl
    | deleting chosen ids =>
      rw [Call.careful, stage] at careful
      dsimp only at careful
      rw [closed, Bool.false_or, List.all_eq_true] at careful
      dsimp only
      rw [votesOf_delete]
      exact List.filter_eq_self.mpr fun v here => careful v (mem_votesOf.mp here).1
    | creating chosen =>
      dsimp only
      split
      · rfl
      · rename_i created
        have opened := (isOpen_of_careful_creating stage careful created).1
        rw [closed] at opened
        cases opened
    | bumpingPoll chosen => rfl
    | bumpingContent => rfl
    | bumpingRefs => rfl
  · exact votesOf_advance_other fits own

theorem versions_advance (db : Db) (c : Call) :
    ∃ more, (c.advance db).1.accepted = db.accepted ++ more ∧
      ∀ pollId, ((c.advance db).1.polls.get pollId).map Poll.version =
        (db.polls.get pollId).map fun p =>
          p.version + (more.filter fun a => a.pollId == pollId).length := by
  have nothing : ∀ db' : Db, db'.accepted = db.accepted → db'.polls = db.polls →
      ∃ more, db'.accepted = db.accepted ++ more ∧
        ∀ pollId, (db'.polls.get pollId).map Poll.version = (db.polls.get pollId).map fun p =>
          p.version + (more.filter fun a => a.pollId == pollId).length := by
    intro db' accepted polls
    refine ⟨[], accepted.trans (List.append_nil _).symm, fun pollId => ?_⟩
    rw [polls]
    rfl
  unfold Call.advance
  cases c.stage with
  | answers options => exact nothing _ rfl rfl
  | listing chosen =>
    dsimp only
    split <;> exact nothing _ rfl rfl
  | deleting chosen ids => exact nothing _ rfl rfl
  | creating chosen =>
    dsimp only
    split <;> exact nothing _ rfl rfl
  | bumpingPoll chosen =>
    refine ⟨_, rfl, fun pollId => ?_⟩
    have bumped := Table.get_modify_key db.polls Poll.bump (fun _ => rfl) c.pollId pollId
    refine (congrArg (Option.map Poll.version) bumped).trans ?_
    rw [List.filter_singleton]
    by_cases same : c.pollId = pollId
    · rw [if_pos same, Option.map_map]
      simp [same, Function.comp_def, Poll.bump]
    · rw [if_neg same]
      simp only [beq_eq_false_iff_ne.mpr same]
      rfl
  | bumpingContent => exact nothing _ rfl rfl
  | bumpingRefs => exact nothing _ rfl rfl

theorem follows_step {w w' : Requests} {e : Event SendVote Unit Disturbance} (sound : Sound w)
    (careful : Careful w e) (happens : voting.step w e = some w') : Follows w w' := by
  rcases Machine.step_cases happens with ⟨call, r, _, rfl, -, rfl⟩ |
    ⟨call, _, c, rfl, here, rfl⟩ | ⟨what, rfl, rfl⟩
  · exact ⟨fun _ _ _ => rfl, [], (List.append_nil _).symm, fun _ => rfl⟩
  · have fits := sound.holds.fits call c here
    exact ⟨fun _ _ closed => votesOf_advance_closed fits (careful c here) closed,
      versions_advance w.shared c⟩
  · refine ⟨fun _ _ _ => votesOf_congr (votes_disturb w.shared what)
      (evolves_disturb w.shared what).answers, [], ?_, fun pollId => ?_⟩
    · rw [List.append_nil]
      exact accepted_disturb w.shared what
    · cases what with
      | close closed =>
        have shut := Table.get_modify w.shared.polls (fun p => p.id == closed) Poll.close
          (fun _ => rfl) pollId
        refine (congrArg (Option.map Poll.version) shut).trans ?_
        rw [Option.map_map]
        refine congrArg (fun f => (w.shared.polls.get pollId).map f) (funext fun p => ?_)
        rw [Function.comp_apply]
        split <;> rfl
      | tick now => rfl

end Closed

section Runs

variable {w : Requests} {es : List (Event SendVote Unit Disturbance)}

end Runs

instance decidableCareful (w : Requests) :
    ∀ e : Event SendVote Unit Disturbance, Decidable (Careful w e)
  | .start _ _ _ => inferInstanceAs (Decidable True)
  | .other _ => inferInstanceAs (Decidable True)
  | .go call _ =>
    match here : w.calls call with
    | none => .isTrue fun c there => by
      rw [here] at there
      cases there
    | some c => decidable_of_iff (c.careful w.shared = true) (by
        constructor
        · intro careful d there
          rw [here] at there
          cases there
          exact careful
        · intro all
          exact all c here)

/-- A poll with one choice out of two. -/
private def teaOrCoffee : Requests where
  shared := {
    polls := ⟨[⟨1, false, false, none, 0⟩], by decide⟩
    answers := ⟨[⟨11, 1, [0]⟩, ⟨12, 1, [1]⟩], by decide⟩
    messages := ⟨[⟨5, 3, false, 4, 0⟩], by decide⟩
    contents := ⟨[⟨4, some 1, 0⟩], by decide⟩
    votes := Votes.empty
    now := 0
    accepted := [] }
  calls := fun _ => none

private theorem teaOrCoffee_begins : Begins teaOrCoffee := ⟨fun _ => rfl, rfl, rfl⟩

/-- A turn of each of the calls. -/
private def turns (calls : List Nat) : List (Event SendVote Unit Disturbance) :=
  calls.map fun call => .go call ()

end Piltover.Polls
