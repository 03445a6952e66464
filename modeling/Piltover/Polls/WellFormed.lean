/- source: piltover/app/handlers/messages/polls.py, piltover/db/models/poll_vote.py
   digest: The votes that requests leave behind, whichever way their turns come. -/

import Mathlib.Data.List.Forall2
import Mathlib.Data.List.Nodup
import Piltover.Polls.Votes

set_option autoImplicit false

namespace Piltover.Polls

open Piltover.Foundation
open Piltover.Foundation.Runs
open Piltover.Foundation.Interleaved

abbrev Requests := World Db Call

namespace Db

variable (db : Db)

def chosenBy (userId pollId : Nat) : List Nat :=
  (db.votesOf userId pollId).map PollVote.answerId

def multiple (pollId : Nat) : Option Bool := (db.polls.get pollId).map Poll.multipleChoices

def isOpen (pollId : Nat) : Bool := (db.polls.get pollId).all fun p => !p.isClosedFr db.now

def clashes (userId : Nat) (chosen : List Nat) : Bool :=
  chosen.any fun a => (db.votes.table.rows.map PollVote.pair).contains (userId, a)

end Db

def Quiet (w : Requests) (userId pollId : Nat) : Prop :=
  ∀ call c, w.calls call = some c → ¬ (c.userId = userId ∧ c.pollId = pollId)

/-- The votes of every user are for different answers of the poll, for one of them at most where it
has no multiple choices, and in the end they are those of a request that was accepted, if any was. -/
structure WellFormed (w : Requests) : Prop where
  distinct : ∀ userId pollId, (w.shared.chosenBy userId pollId).Nodup
  single : ∀ userId pollId, w.shared.multiple pollId = some false →
    (w.shared.chosenBy userId pollId).length ≤ 1
  accepted : ∀ userId pollId, Quiet w userId pollId →
    ⟨userId, pollId, w.shared.chosenBy userId pollId⟩ ∈ w.shared.accepted ∨
      (w.shared.chosenBy userId pollId = [] ∧ ∀ chosen, ⟨userId, pollId, chosen⟩ ∉ w.shared.accepted)

/-- The votes of a closed poll stay, and every request that is accepted counts in the version of
its poll. -/
structure Follows (w w' : Requests) : Prop where
  closed : ∀ userId pollId, w.shared.isOpen pollId = false →
    w'.shared.votesOf userId pollId = w.shared.votesOf userId pollId
  versions : ∃ more, w'.shared.accepted = w.shared.accepted ++ more ∧
    ∀ pollId, (w'.shared.polls.get pollId).map Poll.version =
      (w.shared.polls.get pollId).map fun p =>
        p.version + (more.filter fun a => a.pollId == pollId).length

/-- Votes are deleted and created in open polls, and created where the user has none left, unless
they are refused because the user has voted for one of the answers. -/
def Call.careful (c : Call) (db : Db) : Bool :=
  match c.stage with
  | .deleting _ ids =>
    db.isOpen c.pollId || db.votes.table.rows.all fun v => !ids.contains v.id
  | .creating chosen =>
    db.clashes c.userId chosen || (db.isOpen c.pollId && (db.votesOf c.userId c.pollId).isEmpty)
  | _ => true

def Careful (w : Requests) : Event SendVote Unit Disturbance → Prop
  | .go call _ => ∀ c, w.calls call = some c → c.careful w.shared = true
  | _ => True

/-- Before the first request: nobody has voted. -/
structure Begins (w : Requests) : Prop where
  idle : w.Idle
  votes : w.shared.votes.table.rows = []
  accepted : w.shared.accepted = []

/-! ### Rows that are created and deleted -/

section Rows

variable {votes votes' : Votes} {userId : Nat} {hidden : Bool} {chosen : List Nat}

theorem create_eq_some {answerId : Nat} (created : votes.create userId answerId hidden = some votes') :
    votes'.table.rows = votes.table.rows ++ [⟨votes.next, userId, answerId, hidden⟩] ∧
      votes'.next = votes.next + 1 := by
  unfold Votes.create at created
  split at created
  · cases created
  · cases created
    exact ⟨Table.rows_insert votes.get_next, rfl⟩

theorem create_eq_none {answerId : Nat} :
    votes.create userId answerId hidden = none ↔
      (userId, answerId) ∈ votes.table.rows.map PollVote.pair := by
  unfold Votes.create
  split
  · rename_i taken
    exact ⟨fun _ => Table.any_beq_iff.mp taken, fun _ => rfl⟩
  · rename_i free
    exact ⟨fun refused => (by cases refused),
      fun taken => absurd (Table.any_beq_iff.mpr taken) free⟩

theorem bulkCreate_eq_some (created : Votes.bulkCreate userId hidden chosen votes = some votes') :
    ∃ new : List PollVote, votes'.table.rows = votes.table.rows ++ new ∧
      new.map PollVote.pair = chosen.map (Prod.mk userId) ∧
      (∀ v ∈ new, votes.next ≤ v.id) ∧ votes.next ≤ votes'.next := by
  induction chosen generalizing votes with
  | nil =>
    cases created
    exact ⟨[], (List.append_nil _).symm, rfl, fun v here => (by cases here), Nat.le_refl _⟩
  | cons answerId rest ih =>
    obtain ⟨middle, first, later⟩ := Option.bind_eq_some_iff.mp created
    obtain ⟨rows, next⟩ := create_eq_some first
    obtain ⟨new, rows', pairs, ids, greater⟩ := ih later
    refine ⟨⟨votes.next, userId, answerId, hidden⟩ :: new, ?_, ?_, ?_, by omega⟩
    · rw [rows', rows, List.append_assoc, List.singleton_append]
    · rw [List.map_cons, List.map_cons, pairs]
      rfl
    · intro v here
      rcases List.mem_cons.mp here with rfl | here
      · exact Nat.le_refl _
      · have := ids v here
        omega

theorem bulkCreate_eq_none (distinct : chosen.Nodup)
    (refused : Votes.bulkCreate userId hidden chosen votes = none) :
    ∃ a ∈ chosen, (userId, a) ∈ votes.table.rows.map PollVote.pair := by
  induction chosen generalizing votes with
  | nil => cases refused
  | cons answerId rest ih =>
    obtain ⟨absent, distinct'⟩ := List.nodup_cons.mp distinct
    cases first : votes.create userId answerId hidden with
    | none => exact ⟨answerId, List.mem_cons_self, create_eq_none.mp first⟩
    | some middle =>
      have later : Votes.bulkCreate userId hidden rest middle = none := by
        rw [Votes.bulkCreate, first] at refused
        exact refused
      obtain ⟨a, here, taken⟩ := ih distinct' later
      obtain ⟨rows, -⟩ := create_eq_some first
      rw [rows, List.map_append, List.mem_append] at taken
      rcases taken with old | new
      · exact ⟨a, List.mem_cons_of_mem _ here, old⟩
      · have same : (userId, a) = (userId, answerId) := List.mem_singleton.mp new
        exact absurd ((Prod.mk.inj same).2 ▸ here) absent

theorem not_mem_of_bulkCreate (created : Votes.bulkCreate userId hidden chosen votes = some votes')
    {a : Nat} (here : a ∈ chosen) : (userId, a) ∉ votes.table.rows.map PollVote.pair := by
  obtain ⟨new, rows, pairs, -⟩ := bulkCreate_eq_some created
  have unique := votes'.unique
  rw [rows, List.map_append, pairs, List.nodup_append] at unique
  intro taken
  exact unique.2.2 _ taken _ (List.mem_map_of_mem here) rfl

end Rows

/-! ### What a turn changes -/

/-- What the votes are, for those who have read them: answers and choices stay, and the votes of a
user in a poll are some of those before or all new. -/
structure Evolves (db db' : Db) : Prop where
  answers : db'.answers = db.answers
  multiple : ∀ pollId, db'.multiple pollId = db.multiple pollId
  next : db.votes.next ≤ db'.votes.next
  rows : ∀ v ∈ db'.votes.table, v ∈ db.votes.table ∨ db.votes.next ≤ v.id
  whole : ∀ userId pollId, (∀ v ∈ db'.votesOf userId pollId, v ∈ db.votesOf userId pollId) ∨
    ∀ v ∈ db'.votesOf userId pollId, db.votes.next ≤ v.id

section Changes

variable {db db' : Db} {userId pollId : Nat}

theorem mem_votesOf {v : PollVote} : v ∈ db.votesOf userId pollId ↔
    v ∈ db.votes.table ∧ v.userId = userId ∧ db.onPoll pollId v = true := by
  simp [Db.votesOf, Table.mem_def]

theorem votesOf_congr (votes : db'.votes = db.votes) (answers : db'.answers = db.answers) :
    db'.votesOf userId pollId = db.votesOf userId pollId := by
  simp only [Db.votesOf, Db.onPoll, votes, answers]

theorem chosenBy_nodup (db : Db) (userId pollId : Nat) : (db.chosenBy userId pollId).Nodup := by
  refine List.Nodup.of_map (Prod.mk userId) ?_
  rw [Db.chosenBy, List.map_map]
  have pairs : (db.votesOf userId pollId).map (Prod.mk userId ∘ PollVote.answerId) =
      (db.votesOf userId pollId).map PollVote.pair := by
    refine List.map_congr_left fun v here => ?_
    rw [PollVote.pair, (mem_votesOf.mp here).2.1]
    rfl
  rw [pairs]
  exact db.votes.unique.sublist (List.filter_sublist.map _)

theorem evolves_of_same (votes : db'.votes = db.votes) (answers : db'.answers = db.answers)
    (multiple : ∀ pollId, db'.multiple pollId = db.multiple pollId) : Evolves db db' where
  answers := answers
  multiple := multiple
  next := Nat.le_of_eq (congrArg Votes.next votes.symm)
  rows := fun v here => .inl (votes ▸ here)
  whole := fun userId pollId => .inl fun v here => by
    rwa [votesOf_congr votes answers] at here

theorem multiple_modify (pollId : Nat) (change : Poll → Poll) (check : Poll → Bool)
    (keeps : ∀ p, (change p).id = p.id)
    (same : ∀ p, (change p).multipleChoices = p.multipleChoices) :
    ((db.polls.modify check change keeps).get pollId).map Poll.multipleChoices =
      db.multiple pollId := by
  rw [Table.get_modify, Option.map_map, Db.multiple]
  refine congrArg (fun f => (db.polls.get pollId).map f) (funext fun p => ?_)
  show (if check p = true then change p else p).multipleChoices = p.multipleChoices
  split
  · exact same p
  · rfl

theorem votesOf_delete (db : Db) (ids : List Nat) (userId pollId : Nat) :
    { db with votes := db.votes.delete ids }.votesOf userId pollId =
      (db.votesOf userId pollId).filter fun v => !ids.contains v.id := by
  simp only [Db.votesOf, Votes.delete, Table.remove, List.filter_filter, Bool.and_comm]
  rfl

theorem evolves_delete (db : Db) (ids : List Nat) :
    Evolves db { db with votes := db.votes.delete ids } where
  answers := rfl
  multiple := fun _ => rfl
  next := Nat.le_refl _
  rows := fun v here => .inl (Table.mem_remove.mp here).1
  whole := fun userId pollId => .inl fun v here => by
    rw [votesOf_delete] at here
    exact (List.mem_filter.mp here).1

end Changes

section Creation

variable {db : Db} {votes' : Votes} {userId pollId : Nat} {hidden : Bool} {chosen : List Nat}

theorem votesOf_create (created : Votes.bulkCreate userId hidden chosen db.votes = some votes')
    (belong : ∀ a ∈ chosen, (db.answers.get a).map PollAnswer.pollId = some pollId) :
    (∃ new, { db with votes := votes' }.votesOf userId pollId = db.votesOf userId pollId ++ new ∧
        new.map PollVote.answerId = chosen ∧ ∀ v ∈ new, db.votes.next ≤ v.id) ∧
      ∀ otherUser otherPoll, ¬ (otherUser = userId ∧ otherPoll = pollId) →
        { db with votes := votes' }.votesOf otherUser otherPoll =
          db.votesOf otherUser otherPoll := by
  obtain ⟨new, rows, pairs, ids, -⟩ := bulkCreate_eq_some created
  have each : ∀ v ∈ new, v.userId = userId ∧ v.answerId ∈ chosen := by
    intro v here
    have listed : v.pair ∈ chosen.map (Prod.mk userId) := pairs ▸ List.mem_map_of_mem here
    obtain ⟨a, chosen', same⟩ := List.mem_map.mp listed
    obtain ⟨user, answer⟩ := Prod.mk.inj same
    exact ⟨user.symm, answer ▸ chosen'⟩
  have on : ∀ v ∈ new, ∀ p, db.onPoll p v = true ↔ p = pollId := by
    intro v here p
    obtain ⟨a, found, named⟩ := Option.map_eq_some_iff.mp (belong _ (each v here).2)
    rw [Db.onPoll, found, Option.any_some, beq_iff_eq, named]
    exact eq_comm
  constructor
  · refine ⟨new, ?_, ?_, ids⟩
    · rw [Db.votesOf, rows, List.filter_append]
      congr 1
      refine List.filter_eq_self.mpr fun v here => ?_
      exact Bool.and_eq_true_iff.mpr ⟨beq_iff_eq.mpr (each v here).1, (on v here pollId).mpr rfl⟩
    · have second := congrArg (List.map Prod.snd) pairs
      rw [List.map_map, List.map_map] at second
      simpa [Function.comp_def, PollVote.pair] using second
  · intro otherUser otherPoll apart
    rw [Db.votesOf, rows, List.filter_append]
    have none' : new.filter (fun v => v.userId == otherUser &&
        { db with votes := votes' }.onPoll otherPoll v) = [] := by
      refine List.filter_eq_nil_iff.mpr fun v here chosen' => ?_
      obtain ⟨user, poll⟩ := Bool.and_eq_true_iff.mp chosen'
      exact apart ⟨(beq_iff_eq.mp user).symm.trans (each v here).1, (on v here otherPoll).mp poll⟩
    rw [none', List.append_nil]
    rfl

theorem evolves_create (created : Votes.bulkCreate userId hidden chosen db.votes = some votes')
    (belong : ∀ a ∈ chosen, (db.answers.get a).map PollAnswer.pollId = some pollId)
    (free : db.votesOf userId pollId = []) : Evolves db { db with votes := votes' } := by
  obtain ⟨⟨more, after, -, newer⟩, others⟩ := votesOf_create created belong
  obtain ⟨new, rows, -, ids, greater⟩ := bulkCreate_eq_some created
  refine ⟨rfl, fun _ => rfl, greater, fun v here => ?_, fun otherUser otherPoll => ?_⟩
  · rcases List.mem_append.mp (rows ▸ Table.mem_def.mp here) with old | added
    · exact .inl old
    · exact .inr (ids v added)
  · by_cases same : otherUser = userId ∧ otherPoll = pollId
    · obtain ⟨rfl, rfl⟩ := same
      rw [after, free, List.nil_append]
      exact .inr newer
    · rw [others otherUser otherPoll same]
      exact .inl fun v here => here

end Creation

/-! ### What a request relies on -/

structure Suits (db : Db) (pollId : Nat) (chosen : List Nat) : Prop where
  distinct : chosen.Nodup
  belong : ∀ a ∈ chosen, (db.answers.get a).map PollAnswer.pollId = some pollId
  single : db.multiple pollId = some false → chosen.length ≤ 1

/-- The votes that a request is about to delete are the user's own in the poll, and those that the
user has are all of them or none. -/
structure Targets (db : Db) (userId pollId : Nat) (ids : List Nat) : Prop where
  known : ∀ id ∈ ids, id < db.votes.next
  own : ∀ v ∈ db.votes.table, v.id ∈ ids → v.userId = userId ∧ db.onPoll pollId v = true
  whole : (∀ v ∈ db.votesOf userId pollId, v.id ∈ ids) ∨
    ∀ v ∈ db.votesOf userId pollId, v.id ∉ ids

def Call.Fits (db : Db) (c : Call) : Prop :=
  match c.stage with
  | .answers options => options ≠ [] ∧ options.Nodup ∧
      (db.multiple c.pollId = some false → options.length ≤ 1)
  | .listing chosen => Suits db c.pollId chosen
  | .deleting chosen ids => Suits db c.pollId chosen ∧ Targets db c.userId c.pollId ids
  | .creating chosen => Suits db c.pollId chosen ∧ chosen ≠ []
  | .bumpingPoll chosen => Suits db c.pollId chosen
  | _ => True

def Logged (db : Db) : Prop :=
  ∀ a ∈ db.accepted, db.multiple a.pollId = some false → a.chosen.length ≤ 1

section Fits

variable {db db' : Db} {userId pollId : Nat} {chosen ids : List Nat} {c : Call}

theorem Suits.evolves (suits : Suits db pollId chosen) (evolves : Evolves db db') :
    Suits db' pollId chosen where
  distinct := suits.distinct
  belong := by
    rw [evolves.answers]
    exact suits.belong
  single := by
    rw [evolves.multiple]
    exact suits.single

theorem suits_nil (db : Db) (pollId : Nat) : Suits db pollId [] :=
  ⟨List.nodup_nil, fun a here => (by cases here), fun _ => Nat.zero_le _⟩

theorem Targets.evolves (targets : Targets db userId pollId ids) (evolves : Evolves db db') :
    Targets db' userId pollId ids := by
  have old : ∀ v ∈ db'.votes.table, v.id ∈ ids → v ∈ db.votes.table := by
    intro v here listed
    refine (evolves.rows v here).resolve_right fun newer => ?_
    exact Nat.not_lt.mpr newer (targets.known v.id listed)
  refine ⟨fun id listed => Nat.lt_of_lt_of_le (targets.known id listed) evolves.next, ?_, ?_⟩
  · intro v here listed
    have before := targets.own v (old v here listed) listed
    rwa [Db.onPoll, evolves.answers]
  · rcases evolves.whole userId pollId with subset | newer
    · exact targets.whole.imp (fun all v here => all v (subset v here))
        fun none' v here => none' v (subset v here)
    · exact .inr fun v here listed => Nat.not_lt.mpr (newer v here) (targets.known v.id listed)

/-- What a request relies on survives the turns of the others. -/
theorem Call.Fits.evolves (fits : c.Fits db) (evolves : Evolves db db') : c.Fits db' := by
  unfold Call.Fits at fits ⊢
  cases stage : c.stage with
  | answers options =>
    rw [stage] at fits
    dsimp only at fits ⊢
    rw [evolves.multiple]
    exact fits
  | listing chosen =>
    rw [stage] at fits
    exact Suits.evolves fits evolves
  | deleting chosen ids =>
    rw [stage] at fits
    exact ⟨fits.1.evolves evolves, fits.2.evolves evolves⟩
  | creating chosen =>
    rw [stage] at fits
    exact ⟨fits.1.evolves evolves, fits.2⟩
  | bumpingPoll chosen =>
    rw [stage] at fits
    exact Suits.evolves fits evolves
  | bumpingContent => trivial
  | bumpingRefs => trivial

/-- The results of going through a list belong to its elements, one after the other. -/
theorem forall₂_of_mapM {α β : Type} {f : α → Except Failure β} {l : List α} {m : List β}
    (went : l.mapM f = .ok m) : List.Forall₂ (fun a b => f a = .ok b) l m := by
  induction l generalizing m with
  | nil =>
    cases went
    exact List.Forall₂.nil
  | cons a l ih =>
    rw [List.mapM_cons] at went
    obtain ⟨b, here, rest⟩ := (bind_eq_ok _).mp went
    obtain ⟨bs, later, same⟩ := (bind_eq_ok _).mp rest
    cases same
    exact List.Forall₂.cons here (ih later)

theorem chooseOption_eq_ok {option : Bytes} {a : Nat}
    (ok : db.chooseOption pollId option = .ok a) :
    ∃ answer ∈ db.answers, answer.id = a ∧ answer.pollId = pollId ∧ answer.option = option := by
  obtain ⟨-, rest⟩ := check_bind_eq_ok.mp ok
  obtain ⟨answer, here, same⟩ := orRaise_bind_eq_ok.mp rest
  have bytes := List.find?_some here
  obtain ⟨known, poll⟩ := List.mem_filter.mp (List.mem_of_find?_eq_some here)
  exact ⟨answer, List.mem_reverse.mp known, Except.ok.inj same, by simpa using poll,
    by simpa using bytes⟩

theorem chooseOption_biUnique (db : Db) (pollId : Nat) :
    Relator.BiUnique fun (option : Bytes) a => db.chooseOption pollId option = .ok a := by
  constructor
  · intro first a second here there
    obtain ⟨answer, known, named, -, bytes⟩ := chooseOption_eq_ok here
    obtain ⟨other, known', named', -, bytes'⟩ := chooseOption_eq_ok there
    obtain rfl := Table.eq_of_key_eq known known' (named.trans named'.symm)
    exact bytes.symm.trans bytes'
  · intro option a b here there
    exact Except.ok.inj (here.symm.trans there)

theorem suits_choose {options : List Bytes} (chose : db.choose pollId options = .ok chosen)
    (distinct : options.Nodup) (single : db.multiple pollId = some false → options.length ≤ 1) :
    Suits db pollId chosen ∧ chosen.length = options.length := by
  have each := forall₂_of_mapM chose
  have length := each.length_eq
  refine ⟨⟨(List.rel_nodup (chooseOption_biUnique db pollId) each).mp distinct, ?_, ?_⟩, length.symm⟩
  · intro a here
    obtain ⟨i, bound, rfl⟩ := List.getElem_of_mem here
    obtain ⟨answer, known, named, poll, -⟩ := chooseOption_eq_ok (each.get (length ▸ bound) bound)
    rw [List.get_eq_getElem] at named
    rw [← named, Table.mem_iff_get.mp known, Option.map_some, poll]
  · intro one
    rw [← length]
    exact single one

end Fits

/-! ### The turns of a request -/

section Turns

variable {db db' : Db} {c next : Call}

theorem multiple_of_get {pollId : Nat} {p : Poll} (found : db.polls.get pollId = some p) :
    db.multiple p.id = some p.multipleChoices := by
  have named : p.id = pollId := (Table.get_eq_some_iff.mp found).2
  rw [Db.multiple, named, found]
  rfl

theorem check_eq_ok {r : SendVote} (ok : r.check db = .ok c) :
    c.Fits db ∧ (c.stage = .listing [] ∨ ∃ options, c.stage = .answers options) := by
  obtain ⟨⟨message, poll⟩, read, rest⟩ := orRaise_bind_eq_ok.mp ok
  obtain ⟨-, rest⟩ := check_bind_eq_ok.mp rest
  have choices : db.multiple poll.id = some poll.multipleChoices := by
    obtain ⟨m, -, read⟩ := Option.bind_eq_some_iff.mp read
    obtain ⟨content, -, read⟩ := Option.bind_eq_some_iff.mp read
    obtain ⟨p, found, same⟩ := Option.bind_eq_some_iff.mp read
    obtain ⟨id, -, got⟩ := Option.bind_eq_some_iff.mp found
    cases same
    exact multiple_of_get got
  split at rest
  · cases rest
    exact ⟨suits_nil db poll.id, .inl rfl⟩
  · rename_i some'
    obtain ⟨-, rest⟩ := check_bind_eq_ok.mp rest
    obtain ⟨few, rest⟩ := check_bind_eq_ok.mp rest
    obtain ⟨distinct, rest⟩ := check_bind_eq_ok.mp rest
    cases rest
    refine ⟨⟨?_, of_decide_eq_true (require_eq_ok.mp distinct), ?_⟩, .inr ⟨r.options, rfl⟩⟩
    · intro none'
      exact some' (by rw [none']; rfl)
    · intro one
      rw [choices, Option.some.injEq] at one
      have few' := require_eq_ok.mp few
      rw [one, Bool.or_false] at few'
      exact of_decide_eq_true few'

theorem isOpen_of_careful_creating {chosen : List Nat} (stage : c.stage = .creating chosen)
    (careful : c.careful db = true) {votes' : Votes}
    (created : Votes.bulkCreate c.userId c.channel chosen db.votes = some votes') :
    db.isOpen c.pollId = true ∧ db.votesOf c.userId c.pollId = [] := by
  rw [Call.careful, stage, Bool.or_eq_true, Bool.and_eq_true, List.isEmpty_iff] at careful
  refine careful.resolve_left fun clash => ?_
  obtain ⟨a, here, taken⟩ := List.any_eq_true.mp clash
  exact not_mem_of_bulkCreate created here (List.contains_iff_mem.mp taken)

theorem evolves_advance (fits : c.Fits db) (careful : c.careful db = true) :
    Evolves db (c.advance db).1 := by
  have same : Evolves db db := evolves_of_same rfl rfl fun _ => rfl
  unfold Call.advance
  cases stage : c.stage with
  | answers options => exact same
  | listing chosen =>
    dsimp only
    split <;> exact same
  | deleting chosen ids => exact evolves_delete db ids
  | creating chosen =>
    dsimp only
    cases created : Votes.bulkCreate c.userId c.channel chosen db.votes with
    | none => exact same
    | some votes' =>
      have free := (isOpen_of_careful_creating stage careful created).2
      rw [Call.Fits, stage] at fits
      exact evolves_create created fits.1.belong free
  | bumpingPoll chosen =>
    exact evolves_of_same rfl rfl fun pollId =>
      multiple_modify pollId Poll.bump (fun p => p.id == c.pollId) (fun _ => rfl) fun _ => rfl
  | bumpingContent => exact evolves_of_same rfl rfl fun _ => rfl
  | bumpingRefs => exact evolves_of_same rfl rfl fun _ => rfl

theorem targets_votesOf (db : Db) (userId pollId : Nat) :
    Targets db userId pollId ((db.votesOf userId pollId).map PollVote.id) where
  known := by
    intro id listed
    obtain ⟨v, here, rfl⟩ := List.mem_map.mp listed
    exact db.votes.fresh v (mem_votesOf.mp here).1
  own := by
    intro v here listed
    obtain ⟨u, there, same⟩ := List.mem_map.mp listed
    obtain ⟨known, user, poll⟩ := mem_votesOf.mp there
    obtain rfl := Table.eq_of_key_eq known here same
    exact ⟨user, poll⟩
  whole := .inl fun _ here => List.mem_map_of_mem here

/-- What a request relies on after its turn. -/
theorem fits_advance (fits : c.Fits db) (evolves : Evolves db (c.advance db).1)
    (goes : (c.advance db).2 = some next) : next.Fits (c.advance db).1 := by
  unfold Call.Fits at fits
  unfold Call.advance at goes evolves ⊢
  cases stage : c.stage with
  | answers options =>
    rw [stage] at fits
    simp only [stage] at goes ⊢
    obtain ⟨chosen, chose, went⟩ := Option.bind_eq_some_iff.mp goes
    cases went
    cases found : db.choose c.pollId options with
    | error e =>
      rw [found] at chose
      cases chose
    | ok chosen' =>
      rw [found] at chose
      cases chose
      exact (suits_choose found fits.2.1 fits.2.2).1
  | listing chosen =>
    rw [stage] at fits
    simp only [stage] at goes ⊢
    split at goes
    · dsimp only at goes
      split at goes
      · cases goes
      · rename_i nobody some'
        cases goes
        rw [if_pos nobody]
        exact ⟨fits, fun none' => some' (by rw [none']; rfl)⟩
    · rename_i somebody
      cases goes
      rw [if_neg somebody]
      exact ⟨fits, targets_votesOf db c.userId c.pollId⟩
  | deleting chosen ids =>
    rw [stage] at fits
    simp only [stage] at goes evolves ⊢
    cases goes
    split
    · exact fits.1.evolves evolves
    · rename_i some'
      exact ⟨fits.1.evolves evolves, fun none' => some' (by rw [none']; rfl)⟩
  | creating chosen =>
    rw [stage] at fits
    simp only [stage] at goes evolves ⊢
    cases created : Votes.bulkCreate c.userId c.channel chosen db.votes with
    | none =>
      rw [created] at goes
      cases goes
    | some votes' =>
      rw [created] at goes evolves
      cases goes
      exact fits.1.evolves evolves
  | bumpingPoll chosen =>
    simp only [stage] at goes ⊢
    cases goes
    trivial
  | bumpingContent =>
    simp only [stage] at goes ⊢
    cases goes
    trivial
  | bumpingRefs =>
    simp only [stage] at goes
    cases goes

theorem accepted_advance (db : Db) (c : Call) : (c.advance db).1.accepted = db.accepted ∨
    ∃ chosen, c.stage = .bumpingPoll chosen ∧
      (c.advance db).1.accepted = db.accepted ++ [⟨c.userId, c.pollId, chosen⟩] := by
  unfold Call.advance
  cases stage : c.stage with
  | answers options => exact .inl rfl
  | listing chosen =>
    dsimp only
    split <;> exact .inl rfl
  | deleting chosen ids => exact .inl rfl
  | creating chosen =>
    dsimp only
    split <;> exact .inl rfl
  | bumpingPoll chosen => exact .inr ⟨chosen, rfl, rfl⟩
  | bumpingContent => exact .inl rfl
  | bumpingRefs => exact .inl rfl

theorem logged_advance (logged : Logged db) (fits : c.Fits db)
    (evolves : Evolves db (c.advance db).1) : Logged (c.advance db).1 := by
  intro a here one
  rw [evolves.multiple] at one
  rcases accepted_advance db c with same | ⟨chosen, stage, more⟩
  · exact logged a (same ▸ here) one
  · rw [more, List.mem_append, List.mem_singleton] at here
    rcases here with old | rfl
    · exact logged a old one
    · rw [Call.Fits, stage] at fits
      exact fits.single one

end Turns

/-! ### Which request has left the votes -/

section Explained

/-- The call is about to be accepted with these answers. -/
def IsTelling (userId pollId : Nat) (chosen : List Nat) (o : Option Call) : Prop :=
  ∃ c, o = some c ∧ (c.userId = userId ∧ c.pollId = pollId) ∧ c.stage = .bumpingPoll chosen

def IsWriting (userId pollId : Nat) (o : Option Call) : Prop :=
  ∃ c chosen, o = some c ∧ (c.userId = userId ∧ c.pollId = pollId) ∧ c.stage = .creating chosen

variable (w : Requests) (userId pollId : Nat)

def Tells (chosen : List Nat) : Prop :=
  ⟨userId, pollId, chosen⟩ ∈ w.shared.accepted ∨
    ∃ call, IsTelling userId pollId chosen (w.calls call)

/-- The votes are those of a request, or there are none and either no request has left any or one
is about to. -/
def Explained : Prop :=
  Tells w userId pollId (w.shared.chosenBy userId pollId) ∨
    (w.shared.chosenBy userId pollId = [] ∧
      ((∀ chosen, ¬ Tells w userId pollId chosen) ∨
        ∃ call, IsWriting userId pollId (w.calls call)))

variable {w userId pollId} {call : Nat} {result : Db × Option Call}

theorem tells_turn {chosen : List Nat} (before : ¬ IsTelling userId pollId chosen (w.calls call))
    (accepted : ∀ a ∈ w.shared.accepted, a ∈ result.1.accepted)
    (tells : Tells w userId pollId chosen) : Tells (w.turn call result) userId pollId chosen := by
  rcases tells with old | ⟨other, telling⟩
  · exact .inl (accepted _ old)
  · have apart : other ≠ call := by
      rintro rfl
      exact before telling
    exact .inr ⟨other, by rwa [World.calls_turn_ne apart]⟩

theorem of_tells_turn {chosen : List Nat} (after : ¬ IsTelling userId pollId chosen result.2)
    (accepted : ⟨userId, pollId, chosen⟩ ∈ result.1.accepted →
      ⟨userId, pollId, chosen⟩ ∈ w.shared.accepted)
    (tells : Tells (w.turn call result) userId pollId chosen) : Tells w userId pollId chosen := by
  rcases tells with new | ⟨other, telling⟩
  · exact .inl (accepted new)
  · by_cases same : other = call
    · subst same
      rw [World.calls_turn_self] at telling
      exact absurd telling after
    · rw [World.calls_turn_ne same] at telling
      exact .inr ⟨other, telling⟩

theorem writing_turn (before : ¬ IsWriting userId pollId (w.calls call))
    (writing : ∃ other, IsWriting userId pollId (w.calls other)) :
    ∃ other, IsWriting userId pollId ((w.turn call result).calls other) := by
  obtain ⟨other, writes⟩ := writing
  have apart : other ≠ call := by
    rintro rfl
    exact before writes
  exact ⟨other, by rwa [World.calls_turn_ne apart]⟩

theorem Explained.plain (explained : Explained w userId pollId)
    (chosen : result.1.chosenBy userId pollId = w.shared.chosenBy userId pollId)
    (kept : ∀ a ∈ w.shared.accepted, a ∈ result.1.accepted)
    (nothing : ∀ chosen, ⟨userId, pollId, chosen⟩ ∈ result.1.accepted →
      ⟨userId, pollId, chosen⟩ ∈ w.shared.accepted)
    (before : ∀ chosen, ¬ IsTelling userId pollId chosen (w.calls call))
    (unwritten : ¬ IsWriting userId pollId (w.calls call))
    (after : ∀ chosen, ¬ IsTelling userId pollId chosen result.2) :
    Explained (w.turn call result) userId pollId := by
  have same : (w.turn call result).shared.chosenBy userId pollId =
      w.shared.chosenBy userId pollId := chosen
  unfold Explained
  rw [same]
  rcases explained with tells | ⟨none', silent | writing⟩
  · exact .inl (tells_turn (before _) kept tells)
  · exact .inr ⟨none', .inl fun chosen tells =>
      silent chosen (of_tells_turn (after chosen) (nothing chosen) tells)⟩
  · exact .inr ⟨none', .inr (writing_turn unwritten writing)⟩

theorem not_isTelling_of_stage {c : Call} {chosen : List Nat} (here : w.calls call = some c)
    (stage : c.stage ≠ .bumpingPoll chosen) :
    ¬ IsTelling userId pollId chosen (w.calls call) := by
  rintro ⟨d, there, -, telling⟩
  rw [here] at there
  cases there
  exact stage telling

end Explained

section Advances

variable {w : Requests} {call : Nat} {c : Call} {userId pollId : Nat}

theorem onPoll_unique {db : Db} {v : PollVote} {p q : Nat} (first : db.onPoll p v = true)
    (second : db.onPoll q v = true) : p = q := by
  obtain ⟨a, found, named⟩ := (Option.any_eq_true _ _).mp first
  obtain ⟨b, found', named'⟩ := (Option.any_eq_true _ _).mp second
  obtain rfl := Option.some.inj (found.symm.trans found')
  exact (beq_iff_eq.mp named).symm.trans (beq_iff_eq.mp named')

theorem votesOf_advance_other {db : Db} (fits : c.Fits db)
    (apart : ¬ (userId = c.userId ∧ pollId = c.pollId)) :
    (c.advance db).1.votesOf userId pollId = db.votesOf userId pollId := by
  unfold Call.advance
  cases stage : c.stage with
  | answers options => rfl
  | listing chosen =>
    dsimp only
    split <;> rfl
  | deleting chosen ids =>
    rw [Call.Fits, stage] at fits
    dsimp only
    rw [votesOf_delete]
    refine List.filter_eq_self.mpr fun v here => ?_
    obtain ⟨known, user, poll⟩ := mem_votesOf.mp here
    rw [Bool.not_eq_true', Bool.eq_false_iff]
    intro listed
    obtain ⟨user', poll'⟩ := fits.2.own v known (List.contains_iff_mem.mp listed)
    exact apart ⟨user.symm.trans user', onPoll_unique poll poll'⟩
  | creating chosen =>
    rw [Call.Fits, stage] at fits
    dsimp only
    split
    · rfl
    · rename_i created
      exact (votesOf_create created fits.1.belong).2 userId pollId apart
  | bumpingPoll chosen => rfl
  | bumpingContent => rfl
  | bumpingRefs => rfl

theorem userId_pollId_of_advance {db : Db} {next : Call} (goes : (c.advance db).2 = some next) :
    next.userId = c.userId ∧ next.pollId = c.pollId := by
  unfold Call.advance at goes
  cases stage : c.stage with
  | answers options =>
    simp only [stage] at goes
    obtain ⟨chosen, -, went⟩ := Option.bind_eq_some_iff.mp goes
    cases went
    exact ⟨rfl, rfl⟩
  | listing chosen =>
    simp only [stage] at goes
    split at goes
    · dsimp only at goes
      split at goes
      · cases goes
      · cases goes
        exact ⟨rfl, rfl⟩
    · cases goes
      exact ⟨rfl, rfl⟩
  | creating chosen =>
    simp only [stage] at goes
    split at goes
    · cases goes
    · cases goes
      exact ⟨rfl, rfl⟩
  | bumpingRefs =>
    simp only [stage] at goes
    cases goes
  | _ =>
    simp only [stage] at goes
    cases goes
    exact ⟨rfl, rfl⟩

theorem explained_advance_other (explained : Explained w userId pollId)
    (here : w.calls call = some c) (fits : c.Fits w.shared)
    (apart : ¬ (userId = c.userId ∧ pollId = c.pollId)) :
    Explained (w.turn call (c.advance w.shared)) userId pollId := by
  have elsewhere : ¬ (c.userId = userId ∧ c.pollId = pollId) :=
    fun both => apart ⟨both.1.symm, both.2.symm⟩
  refine explained.plain ?_ ?_ ?_ ?_ ?_ ?_
  · rw [Db.chosenBy, votesOf_advance_other fits apart]
    rfl
  · intro a listed
    rcases accepted_advance w.shared c with same | ⟨chosen, -, more⟩
    · rwa [same]
    · rw [more]
      exact List.mem_append_left _ listed
  · intro chosen listed
    rcases accepted_advance w.shared c with same | ⟨chosen', -, more⟩
    · rwa [same] at listed
    · rw [more, List.mem_append, List.mem_singleton] at listed
      refine listed.resolve_right fun new => ?_
      cases new
      exact apart ⟨rfl, rfl⟩
  · rintro chosen ⟨d, there, both, -⟩
    rw [here] at there
    cases there
    exact elsewhere both
  · rintro ⟨d, chosen, there, both, -⟩
    rw [here] at there
    cases there
    exact elsewhere both
  · rintro chosen ⟨d, goes, both, -⟩
    obtain ⟨user, poll⟩ := userId_pollId_of_advance goes
    exact elsewhere ⟨user ▸ both.1, poll ▸ both.2⟩

theorem chosenBy_ne_nil {db : Db} {chosen : List Nat} (suits : Suits db pollId chosen) {a : Nat}
    (here : a ∈ chosen) (taken : (userId, a) ∈ db.votes.table.rows.map PollVote.pair) :
    db.chosenBy userId pollId ≠ [] := by
  obtain ⟨v, known, same⟩ := List.mem_map.mp taken
  obtain ⟨user, answer⟩ := Prod.mk.inj same
  obtain ⟨found, got, named⟩ := Option.map_eq_some_iff.mp (suits.belong a here)
  have poll : db.onPoll pollId v = true := by
    rw [Db.onPoll, answer, got, Option.any_some, named]
    exact beq_self_eq_true _
  have listed : v ∈ db.votesOf userId pollId := mem_votesOf.mpr ⟨known, user, poll⟩
  exact fun none' => by
    rw [List.map_eq_nil_iff.mp none'] at listed
    cases listed

theorem explained_advance_self (explained : Explained w c.userId c.pollId)
    (here : w.calls call = some c) (fits : c.Fits w.shared) (careful : c.careful w.shared = true) :
    Explained (w.turn call (c.advance w.shared)) c.userId c.pollId := by
  have untold : ∀ chosen, c.stage ≠ .bumpingPoll chosen →
      ¬ IsTelling c.userId c.pollId chosen (w.calls call) :=
    fun chosen stage => not_isTelling_of_stage here stage
  have unwritten : (∀ chosen, c.stage ≠ .creating chosen) →
      ¬ IsWriting c.userId c.pollId (w.calls call) := by
    rintro stage ⟨d, chosen, there, -, writing⟩
    rw [here] at there
    cases there
    exact stage chosen writing
  have kept : ∀ a ∈ w.shared.accepted, a ∈ w.shared.accepted := fun _ listed => listed
  unfold Call.advance
  unfold Call.Fits at fits
  cases stage : c.stage with
  | answers options =>
    simp only [stage] at untold unwritten
    refine explained.plain rfl kept (fun _ => id) (fun _ => untold _ (by simp))
      (unwritten (by simp)) ?_
    rintro chosen ⟨d, goes, -, telling⟩
    obtain ⟨chosen', -, went⟩ := Option.bind_eq_some_iff.mp goes
    cases went
    cases telling
  | listing chosen =>
    simp only [stage] at untold unwritten
    dsimp only
    split
    · refine explained.plain rfl kept (fun _ => id) (fun _ => untold _ (by simp))
        (unwritten (by simp)) ?_
      rintro chosen' ⟨d, goes, -, telling⟩
      dsimp only at goes
      split at goes
      · cases goes
      · cases goes
        cases telling
    · refine explained.plain rfl kept (fun _ => id) (fun _ => untold _ (by simp))
        (unwritten (by simp)) ?_
      rintro chosen' ⟨d, goes, -, telling⟩
      cases goes
      cases telling
  | deleting chosen ids =>
    rw [stage] at fits
    simp only [stage] at untold unwritten
    dsimp only
    have left : { w.shared with votes := w.shared.votes.delete ids }.chosenBy c.userId c.pollId =
        [] ∨ { w.shared with votes := w.shared.votes.delete ids }.chosenBy c.userId c.pollId =
          w.shared.chosenBy c.userId c.pollId := by
      simp only [Db.chosenBy, votesOf_delete]
      refine fits.2.whole.imp (fun all => ?_) fun none' => ?_
      · refine List.map_eq_nil_iff.mpr (List.filter_eq_nil_iff.mpr fun v listed => ?_)
        simpa using all v listed
      · refine congrArg _ (List.filter_eq_self.mpr fun v listed => ?_)
        simpa using none' v listed
    split
    · rename_i retracts
      obtain rfl : chosen = [] := List.isEmpty_iff.mp retracts
      rcases left with gone | same
      · refine .inl (.inr ⟨call, ?_⟩)
        rw [World.calls_turn_self]
        exact ⟨_, rfl, ⟨rfl, rfl⟩, congrArg Stage.bumpingPoll gone.symm⟩
      · rcases explained with tells | ⟨none', -⟩
        · refine .inl ?_
          show Tells _ _ _ ({ w.shared with votes := w.shared.votes.delete ids }.chosenBy _ _)
          rw [same]
          exact tells_turn (untold _ (by simp)) kept tells
        · refine .inl (.inr ⟨call, ?_⟩)
          rw [World.calls_turn_self]
          exact ⟨_, rfl, ⟨rfl, rfl⟩, congrArg Stage.bumpingPoll (same.trans none').symm⟩
    · rcases left with gone | same
      · refine .inr ⟨gone, .inr ⟨call, ?_⟩⟩
        rw [World.calls_turn_self]
        exact ⟨_, chosen, rfl, ⟨rfl, rfl⟩, rfl⟩
      · refine explained.plain same kept (fun _ => id) (fun _ => untold _ (by simp))
          (unwritten (by simp)) ?_
        rintro chosen' ⟨d, goes, -, telling⟩
        cases goes
        cases telling
  | creating chosen =>
    rw [stage] at fits
    simp only [stage] at untold
    dsimp only
    split
    · rename_i refused
      obtain ⟨a, listed, taken⟩ := bulkCreate_eq_none fits.1.distinct refused
      rcases explained with tells | ⟨none', -⟩
      · exact .inl (tells_turn (untold _ (by simp)) kept tells)
      · exact absurd none' (chosenBy_ne_nil fits.1 listed taken)
    · rename_i votes' created
      have free := (isOpen_of_careful_creating stage careful created).2
      obtain ⟨new, after, chosen', -⟩ := (votesOf_create created fits.1.belong).1
      have now : { w.shared with votes := votes' }.chosenBy c.userId c.pollId = chosen := by
        rw [Db.chosenBy, after, free, List.nil_append, chosen']
      refine .inl (.inr ⟨call, ?_⟩)
      rw [World.calls_turn_self]
      exact ⟨_, rfl, ⟨rfl, rfl⟩, congrArg Stage.bumpingPoll now.symm⟩
  | bumpingPoll chosen =>
    dsimp only
    have more : ∀ a ∈ w.shared.accepted,
        a ∈ w.shared.accepted ++ [⟨c.userId, c.pollId, chosen⟩] :=
      fun a listed => List.mem_append_left _ listed
    rcases explained with (old | ⟨other, telling⟩) | ⟨none', silent | ⟨other, writes⟩⟩
    · exact .inl (.inl (more _ old))
    · by_cases same : other = call
      · subst same
        obtain ⟨d, there, -, told⟩ := telling
        rw [here] at there
        cases there
        rw [stage] at told
        cases told
        exact .inl (.inl (List.mem_append_right _ List.mem_cons_self))
      · exact .inl (.inr ⟨other, by rwa [World.calls_turn_ne same]⟩)
    · exact absurd (.inr ⟨call, c, here, ⟨rfl, rfl⟩, stage⟩) (silent chosen)
    · have apart : other ≠ call := by
        rintro rfl
        exact unwritten (by simp [stage]) writes
      exact .inr ⟨none', .inr ⟨other, by rwa [World.calls_turn_ne apart]⟩⟩
  | bumpingContent =>
    simp only [stage] at untold unwritten
    refine explained.plain rfl kept (fun _ => id) (fun _ => untold _ (by simp))
      (unwritten (by simp)) ?_
    rintro chosen' ⟨d, goes, -, telling⟩
    cases goes
    cases telling
  | bumpingRefs =>
    simp only [stage] at untold unwritten
    refine explained.plain rfl kept (fun _ => id) (fun _ => untold _ (by simp))
      (unwritten (by simp)) ?_
    rintro chosen' ⟨d, goes, -, telling⟩
    cases goes

end Advances

end Piltover.Polls
