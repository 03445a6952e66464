/- source: piltover/app/handlers/messages/reactions.py
   digest: Limits on reactions hold as long as three kinds of turns do not occur. -/

import Mathlib.Data.Finset.Card
import Piltover.Reactions.Sending

set_option autoImplicit false

namespace Piltover.Reactions.Sending

open Piltover.Foundation
open Piltover.Foundation.Runs
open Piltover.Foundation.Interleaved

/-- Requests under way, over the tables. -/
abbrev Requests := World Db Task

abbrev Turn := Event SendReaction (Except Failure Located) (Nat → Nat → Bool)

/-! ### What a turn may do -/

def Task.Repeats (t : Task) (db : Db) : Prop :=
  match t with
  | .locating _ _ => False
  | .call c => (∃ kind ∈ db.reactions.kinds c.messageId, c.wanted = some kind) ∨
      (db.reactions.of c.request.userId c.messageId).isSome

def Task.Removes (t : Task) (db : Db) (located : Except Failure Located) : Prop :=
  match t with
  | .locating r _ => r.removes = true ∧
      ∃ found, located = .ok found ∧ (db.reactions.of r.userId found.messageId).isSome
  | .call c =>
    c.request.removes = true ∧ (db.reactions.of c.request.userId c.messageId).isSome

def Task.Offers (t : Task) (row : MessageReaction) : Prop :=
  match t with
  | .locating _ _ => False
  | .call c => ∀ channel, c.channel = some channel → channel.allReactions = false →
      c.offered = true ∧ ∃ reactionId, row.kind = .standard reactionId

def Task.request : Task → SendReaction
  | .locating r _ => r
  | .call c => c.request

/-- The turn respects the limits. -/
structure Task.Respects (t : Task) (db : Db) (located : Except Failure Located) : Prop where
  single : ∀ r ∈ (t.advance db located).1.reactions.table,
    ∀ s ∈ (t.advance db located).1.reactions.table, r.pair = s.pair → r = s
  few : ∀ messageId, ((t.advance db located).1.reactions.kinds messageId).length ≤
    db.reactionsUniqueMax
  spared : (t.advance db located).2 = .error reactionsTooMany → ¬t.Repeats db
  removable : ∀ failure, (t.advance db located).2 = .error failure → ¬t.Removes db located
  offered : ∀ r ∈ (t.advance db located).1.reactions.table, r ∉ db.reactions.table → t.Offers r
  unknown : t.request.unknown db = true →
    (t.advance db located).1.reactions.table.rows = db.reactions.table.rows

def Respects (w : Requests) : Turn → Prop
  | .go call located => ∀ t, w.calls call = some t → t.Respects w.shared located
  | _ => True

/-! ### Which turns do -/

/-- Nobody takes their reaction away in a channel that does not allow all of them, an emoji that is
not known deletes nothing, and what is new on a message is stored while there is room for it. -/
def Task.Careful (t : Task) (db : Db) (located : Except Failure Located) : Prop :=
  match t with
  | .locating r _ => ∀ found channel, located = .ok found → found.channel = some channel →
      channel.allReactions = false → r.removes = true →
        db.reactions.of r.userId found.messageId = none
  | .call c =>
    match c.stage with
    | .deleting id => c.request.unknown db = true →
        ∀ r ∈ db.reactions.table, c.deletes id r = false
    | .creating => ∀ kind, c.wanted = some kind →
        (db.reactions.of c.request.userId c.messageId).isSome ∨
          kind ∈ db.reactions.kinds c.messageId ∨
          (db.reactions.kinds c.messageId).length < db.reactionsUniqueMax
    | _ => True

def Careful (w : Requests) : Turn → Prop
  | .go call located => ∀ t, w.calls call = some t → t.Careful w.shared located
  | _ => True

/-! ### Rows -/

namespace MessageReactions

variable {reactions after : MessageReactions} {userId messageId : Nat} {kind : Kind}

theorem eq_of_pair_eq {r s : MessageReaction} (here : r ∈ reactions.table)
    (there : s ∈ reactions.table) (same : r.pair = s.pair) : r = s :=
  List.inj_on_of_nodup_map reactions.unique here there same

theorem create_eq_none_iff :
    reactions.create userId messageId kind = none ↔ (reactions.of userId messageId).isSome := by
  rw [create, of, List.find?_isSome]
  split
  case isTrue taken => exact iff_of_true rfl (List.any_eq_true.mp taken)
  case isFalse free =>
      exact iff_of_false (by simp) fun found => free (List.any_eq_true.mpr found)

theorem rows_create (created : reactions.create userId messageId kind = some after) :
    after.table.rows = reactions.table.rows ++ [⟨reactions.next, userId, messageId, kind⟩] := by
  rw [create] at created
  split at created
  case isTrue => cases created
  case isFalse =>
      cases created
      exact Table.rows_insert reactions.get_next

theorem length_dedup_concat (l : List Kind) (kind : Kind) :
    (l ++ [kind]).dedup.length = if kind ∈ l then l.dedup.length else l.dedup.length + 1 := by
  have concat : (l ++ [kind]).toFinset = insert kind l.toFinset := by
    ext k
    simp
  rw [← List.card_toFinset, ← List.card_toFinset, concat]
  split
  case isTrue listed => rw [Finset.insert_eq_self.mpr (List.mem_toFinset.mpr listed)]
  case isFalse new => rw [Finset.card_insert_of_notMem (mt List.mem_toFinset.mp new)]

theorem length_kinds_create (created : reactions.create userId messageId kind = some after) :
    (after.kinds messageId).length =
      if kind ∈ reactions.kinds messageId then (reactions.kinds messageId).length
      else (reactions.kinds messageId).length + 1 := by
  rw [kinds, rows_create created, List.filter_append, List.map_append]
  have own : [(⟨reactions.next, userId, messageId, kind⟩ : MessageReaction)].filter
      (fun r => r.messageId == messageId) = [⟨reactions.next, userId, messageId, kind⟩] := by
    rw [List.filter_singleton, beq_self_eq_true]
    rfl
  rw [own, List.map_singleton, length_dedup_concat]
  simp only [kinds, List.mem_dedup]

theorem kinds_create_other (created : reactions.create userId messageId kind = some after)
    {other : Nat} (apart : other ≠ messageId) : after.kinds other = reactions.kinds other := by
  have none : [(⟨reactions.next, userId, messageId, kind⟩ : MessageReaction)].filter
      (fun r => r.messageId == other) = [] := by
    rw [List.filter_singleton, beq_false_of_ne (Ne.symm apart)]
    rfl
  rw [kinds, rows_create created, List.filter_append, none, List.append_nil, kinds]

theorem length_kinds_delete (condition : MessageReaction → Bool) (messageId : Nat) :
    ((reactions.delete condition).kinds messageId).length ≤ (reactions.kinds messageId).length := by
  rw [kinds, kinds, ← List.card_toFinset, ← List.card_toFinset]
  apply Finset.card_le_card
  intro k listed
  obtain ⟨r, here, same⟩ := List.mem_map.mp (List.mem_toFinset.mp listed)
  obtain ⟨stays, on⟩ := List.mem_filter.mp here
  exact List.mem_toFinset.mpr (List.mem_map.mpr
    ⟨r, List.mem_filter.mpr ⟨(Table.mem_remove.mp stays).1, on⟩, same⟩)

end MessageReactions

/-! ### Requests -/

section

variable {db after : Db} {r : SendReaction} {wanted : Option Kind} {c : Call} {t : Task}
  {located : Except Failure Located}

theorem wanted_of_removes (resolved : r.resolve db = .ok wanted) (removes : r.removes = true) :
    wanted = none := by
  unfold SendReaction.removes at removes
  unfold SendReaction.resolve at resolved
  split at removes
  case h_1 same => rw [same] at resolved; exact (Except.ok.inj resolved).symm
  case h_2 same => rw [same] at resolved; exact (Except.ok.inj resolved).symm
  case h_3 => cases removes

theorem wanted_of_unknown (resolved : r.resolve db = .ok wanted) (unknown : r.unknown db = true) :
    wanted = none := by
  unfold SendReaction.unknown at unknown
  unfold SendReaction.resolve at resolved
  split at unknown
  case h_1 same =>
      rw [same] at resolved
      dsimp only at resolved
      rw [Option.isNone_iff_eq_none.mp unknown, Option.map_none] at resolved
      exact (Except.ok.inj resolved).symm
  case h_2 => cases unknown

/-- What is known of a request whose message is found. -/
structure Call.Fits (c : Call) (db : Db) : Prop where
  resolved : c.request.resolve db = .ok c.wanted
  asks : c.stage = .allowing → ∃ reactionId, c.wanted = some (.standard reactionId)
  allowed : c.stage ≠ .allowing → ∀ channel, c.channel = some channel →
    channel.allReactions = false → c.offered = true ∧ ∃ reactionId, c.wanted = some (.standard reactionId)

def Task.Fits (t : Task) (db : Db) : Prop :=
  match t with
  | .locating r wanted => r.resolve db = .ok wanted
  | .call c => c.Fits db

def Db.Within (db : Db) : Prop := ∀ messageId,
  (db.reactions.kinds messageId).length ≤ db.reactionsUniqueMax

theorem respects_of_reads (within : db.Within)
    (same : (t.advance db located).1.reactions = db.reactions)
    (spared : (t.advance db located).2 = .error reactionsTooMany → ¬t.Repeats db)
    (removable : ∀ failure, (t.advance db located).2 = .error failure → ¬t.Removes db located) :
    t.Respects db located where
  single := fun _ here _ there => MessageReactions.eq_of_pair_eq here there
  few := by rw [same]; exact within
  spared := spared
  removable := removable
  offered := fun r here new => absurd (same ▸ here) new
  unknown := fun _ => by rw [same]

theorem checkChannel_none {found : Located} {failure : Failure}
    (refused : checkChannel r none found = .error failure) :
    ∃ channel, found.channel = some channel ∧ channel.allReactions = false := by
  unfold checkChannel at refused
  dsimp only at refused
  split at refused
  case h_1 => cases refused
  case h_2 channel same =>
      split at refused
      case isTrue limited => exact ⟨channel, same, limited⟩
      case isFalse => cases refused

theorem respects_locating_iff (within : db.Within) (resolved : r.resolve db = .ok wanted) :
    (Task.locating r wanted).Respects db located ↔ (Task.locating r wanted).Careful db located := by
  constructor
  · intro respects found channel here same limited removes
    have nothing := wanted_of_removes resolved removes
    have refused : ((Task.locating r wanted).advance db located).2 = .error chatWriteForbidden := by
      rw [Task.advance, here, nothing]
      change checkChannel r none found = _
      unfold checkChannel
      rw [same]
      exact if_pos limited
    have kept := respects.removable _ refused
    cases own : db.reactions.of r.userId found.messageId with
    | none => rfl
    | some existing => exact absurd ⟨removes, found, here, by rw [own]; rfl⟩ kept
  · intro careful
    refine respects_of_reads within rfl (fun _ repeats => repeats) ?_
    rintro failure refused ⟨removes, found, here, own⟩
    have nothing := wanted_of_removes resolved removes
    rw [Task.advance, here, nothing] at refused
    obtain ⟨channel, same, limited⟩ := checkChannel_none refused
    rw [careful found channel here same limited removes] at own
    cases own

theorem respects_allowing (within : db.Within) (fits : c.Fits db) (stage : c.stage = .allowing) :
    (Task.call c).Respects db located := by
  obtain ⟨reactionId, wants⟩ := fits.asks stage
  have reads : ((Task.call c).advance db located).1 = db := by
    rw [Task.advance, Call.advance, stage]
    dsimp only
    split <;> [split <;> rfl; rfl]
  have refuses : ∀ failure, ((Task.call c).advance db located).2 = .error failure →
      failure = chatWriteForbidden := by
    intro failure refused
    rw [Task.advance, Call.advance, stage] at refused
    dsimp only at refused
    split at refused
    case h_1 =>
        split at refused
        case isTrue => cases refused
        case isFalse => exact (Except.error.inj refused).symm
    case h_2 => exact (Except.error.inj refused).symm
  refine respects_of_reads within (congrArg _ reads) ?_ ?_
  · intro refused
    have same := refuses _ refused
    cases same
  · rintro failure - ⟨removes, -⟩
    rw [wanted_of_removes fits.resolved removes] at wants
    cases wants

theorem respects_counting (within : db.Within) (stage : c.stage = .counting) :
    (Task.call c).Respects db located := by
  have goes : (Task.call c).advance db located = (db, c.goesOn .finding) := by
    rw [Task.advance, Call.advance, stage]
    exact if_neg (Nat.not_lt.mpr (within c.messageId))
  refine respects_of_reads within (by rw [goes]) ?_ ?_
  · intro refused
    rw [goes] at refused
    cases refused
  · intro failure refused
    rw [goes] at refused
    cases refused

theorem respects_finding (within : db.Within) (fits : c.Fits db) (stage : c.stage = .finding) :
    (Task.call c).Respects db located := by
  have reads : ((Task.call c).advance db located).1 = db := by
    rw [Task.advance, Call.advance, stage]
    dsimp only
    split <;> rfl
  refine respects_of_reads within (congrArg _ reads) ?_ ?_
  · intro refused
    have other : reactionNotModified ≠ reactionsTooMany := by decide
    rw [Task.advance, Call.advance, stage] at refused
    dsimp only at refused
    split at refused <;> split at refused
    all_goals first | exact absurd (Except.error.inj refused) other | cases refused
  · rintro failure refused ⟨removes, own⟩
    obtain ⟨existing, found⟩ := Option.isSome_iff_exists.mp own
    rw [Task.advance, Call.advance, stage] at refused
    dsimp only at refused
    rw [found, wanted_of_removes fits.resolved removes] at refused
    cases refused

theorem respects_deleting_iff (within : db.Within) {id : Nat} (stage : c.stage = .deleting id) :
    (Task.call c).Respects db located ↔ (Task.call c).Careful db located := by
  have goes : (Task.call c).advance db located =
      ({ db with reactions := db.reactions.delete (c.deletes id) },
        c.goesOn (if c.wanted.isNone then .updating else .creating)) := by
    rw [Task.advance, Call.advance, stage]
  have careful_eq : (Task.call c).Careful db located ↔ (c.request.unknown db = true →
      ∀ r ∈ db.reactions.table, c.deletes id r = false) := by
    rw [Task.Careful, stage]
  rw [careful_eq]
  constructor
  · intro respects unknown r here
    have rows := respects.unknown unknown
    rw [goes] at rows
    have stays : r ∈ (db.reactions.delete (c.deletes id)).table := Table.mem_def.mpr (rows ▸ here)
    exact (Table.mem_remove.mp stays).2
  · intro careful
    refine ⟨fun _ here _ there => MessageReactions.eq_of_pair_eq here there, fun messageId => ?_,
      fun refused => ?_, fun failure refused => ?_, fun r here new => ?_, fun unknown => ?_⟩
    · rw [goes]
      exact Nat.le_trans (MessageReactions.length_kinds_delete _ messageId) (within messageId)
    · rw [goes] at refused
      cases refused
    · rw [goes] at refused
      cases refused
    · rw [goes] at here
      exact absurd (Table.mem_remove.mp here).1 new
    · rw [goes]
      have all := careful unknown
      exact List.filter_eq_self.mpr fun r here => by rw [all r here]; rfl

theorem respects_creating_iff (within : db.Within) (fits : c.Fits db) (stage : c.stage = .creating) :
    (Task.call c).Respects db located ↔ (Task.call c).Careful db located := by
  have careful_eq : (Task.call c).Careful db located ↔ ∀ kind, c.wanted = some kind →
      (db.reactions.of c.request.userId c.messageId).isSome ∨
        kind ∈ db.reactions.kinds c.messageId ∨
        (db.reactions.kinds c.messageId).length < db.reactionsUniqueMax := by
    rw [Task.Careful, stage]
  rw [careful_eq]
  cases wants : c.wanted with
  | none =>
    have goes : (Task.call c).advance db located = (db, c.goesOn .updating) := by
      rw [Task.advance, Call.advance, stage, wants]
    refine iff_of_true (respects_of_reads within (by rw [goes]) ?_ ?_) fun kind same => by cases same
    · intro refused
      rw [goes] at refused
      cases refused
    · intro failure refused
      rw [goes] at refused
      cases refused
  | some kind =>
    have keeps : c.request.removes = true → False := fun removes => by
      have nothing := wanted_of_removes fits.resolved removes
      rw [wants] at nothing
      cases nothing
    cases created : db.reactions.create c.request.userId c.messageId kind with
    | none =>
      have goes : (Task.call c).advance db located = (db, .error integrityError) := by
        rw [Task.advance, Call.advance, stage, wants]
        dsimp only
        rw [created]
      have own := MessageReactions.create_eq_none_iff.mp created
      refine iff_of_true (respects_of_reads within (by rw [goes]) ?_ ?_) fun _ _ => .inl own
      · intro refused
        rw [goes] at refused
        cases refused
      · rintro failure - ⟨removes, -⟩
        exact keeps removes
    | some reactions =>
      have goes : (Task.call c).advance db located =
          ({ db with reactions }, c.goesOn .updating) := by
        rw [Task.advance, Call.advance, stage, wants]
        dsimp only
        rw [created]
      have free : ¬(db.reactions.of c.request.userId c.messageId).isSome := fun own => by
        rw [MessageReactions.create_eq_none_iff.mpr own] at created
        cases created
      have length := MessageReactions.length_kinds_create created
      constructor
      · intro respects _ same
        cases same
        have few := respects.few c.messageId
        rw [goes] at few
        change (reactions.kinds c.messageId).length ≤ _ at few
        rw [length] at few
        split at few
        case isTrue present => exact .inr (.inl present)
        case isFalse => exact .inr (.inr few)
      · intro careful
        have room := (careful kind rfl).resolve_left free
        refine ⟨fun _ here _ there => MessageReactions.eq_of_pair_eq here there,
          fun messageId => ?_, fun refused => ?_, fun failure refused => ?_,
          fun r here new => ?_, fun unknown => ?_⟩
        · rw [goes]
          change (reactions.kinds messageId).length ≤ _
          by_cases own : messageId = c.messageId
          · rw [own, length]
            split
            case isTrue => exact within c.messageId
            case isFalse new => exact room.resolve_left new
          · rw [MessageReactions.kinds_create_other created own]
            exact within messageId
        · rw [goes] at refused
          cases refused
        · rw [goes] at refused
          cases refused
        · rw [goes, Table.mem_def, MessageReactions.rows_create created] at here
          rcases List.mem_append.mp here with old | here
          · exact absurd old new
          · rw [List.mem_singleton.mp here]
            intro channel same limited
            obtain ⟨offered, reactionId, standard⟩ :=
              fits.allowed (by rw [stage]; decide) channel same limited
            rw [wants] at standard
            exact ⟨offered, reactionId, Option.some.inj standard⟩
        · have nothing := wanted_of_unknown fits.resolved unknown
          rw [wants] at nothing
          cases nothing

theorem respects_updating (within : db.Within) (stage : c.stage = .updating) :
    (Task.call c).Respects db located := by
  have ends : ((Task.call c).advance db located).2 = .ok none := by
    rw [Task.advance, Call.advance, stage]
  refine respects_of_reads within ?_ ?_ ?_
  · rw [Task.advance, Call.advance, stage]
  · intro refused
    rw [ends] at refused
    cases refused
  · intro failure refused
    rw [ends] at refused
    cases refused

theorem respects_iff (within : db.Within) (fits : t.Fits db) :
    t.Respects db located ↔ t.Careful db located := by
  cases t with
  | locating r wanted => exact respects_locating_iff within fits
  | call c =>
    have plain (stage : (∀ id, c.stage ≠ .deleting id) ∧ c.stage ≠ .creating) :
        (Task.call c).Careful db located := by
      unfold Task.Careful
      split
      case h_1 same => cases same
      case h_2 c' same =>
        cases same
        split
        case h_1 id same => exact absurd same (stage.1 id)
        case h_2 same => exact absurd same stage.2
        case h_3 => trivial
    cases stage : c.stage with
    | allowing =>
      exact iff_of_true (respects_allowing within fits stage) (plain (by rw [stage]; simp))
    | counting => exact iff_of_true (respects_counting within stage) (plain (by rw [stage]; simp))
    | finding =>
      exact iff_of_true (respects_finding within fits stage) (plain (by rw [stage]; simp))
    | deleting id => exact respects_deleting_iff within stage
    | creating => exact respects_creating_iff within fits stage
    | updating => exact iff_of_true (respects_updating within stage) (plain (by rw [stage]; simp))

/-! ### Runs -/

/-- What no request changes. -/
structure Unmoved (db after : Db) : Prop where
  reaction : after.reaction = db.reaction
  documentEmoji : after.documentEmoji = db.documentEmoji
  reactionsUniqueMax : after.reactionsUniqueMax = db.reactionsUniqueMax

theorem unmoved_advance (t : Task) (db : Db) (located : Except Failure Located) :
    Unmoved db (t.advance db located).1 := by
  cases t with
  | locating r wanted => exact ⟨rfl, rfl, rfl⟩
  | call c =>
    rw [Task.advance]
    unfold Call.advance
    split
    case h_4 => exact ⟨rfl, rfl, rfl⟩
    case h_6 => exact ⟨rfl, rfl, rfl⟩
    all_goals split
    all_goals first
      | exact ⟨rfl, rfl, rfl⟩
      | (split <;> exact ⟨rfl, rfl, rfl⟩)

theorem Unmoved.resolve (unmoved : Unmoved db after) (r : SendReaction) :
    r.resolve after = r.resolve db := by
  rw [SendReaction.resolve, SendReaction.resolve, unmoved.reaction, unmoved.documentEmoji]

theorem Task.Fits.moved (fits : t.Fits db) (unmoved : Unmoved db after) : t.Fits after := by
  cases t with
  | locating r wanted => exact (unmoved.resolve r).trans fits
  | call c => exact ⟨(unmoved.resolve _).trans fits.resolved, fits.asks, fits.allowed⟩

theorem Call.Fits.goesOn (fits : c.Fits db) (past : c.stage ≠ .allowing) {stage : Stage}
    (later : stage ≠ .allowing) : ({ c with stage } : Call).Fits db :=
  ⟨fits.resolved, fun same => absurd same later, fun _ => fits.allowed past⟩

theorem fits_checkChannel (resolved : r.resolve db = .ok wanted) {found : Located}
    (goes : checkChannel r wanted found = .ok (some t)) : t.Fits db := by
  unfold checkChannel at goes
  dsimp only at goes
  split at goes
  case h_1 nowhere =>
      cases goes
      exact ⟨resolved, fun same => (by cases same), fun _ channel same _ => by
        rw [nowhere] at same
        cases same⟩
  case h_2 channel there =>
      have open_ (stage : Stage) (later : stage ≠ .allowing) (free : channel.allReactions = true) :
          (Call.mk r wanted found.messageId found.channel false stage).Fits db :=
        ⟨resolved, fun same => absurd same later, fun _ other same limited => by
          rw [there] at same
          cases same
          rw [free] at limited
          cases limited⟩
      split at goes
      case isTrue =>
          split at goes
          case h_1 reactionId =>
              cases goes
              exact ⟨resolved, fun _ => ⟨reactionId, rfl⟩, fun later => absurd rfl later⟩
          case h_2 => cases goes
      case isFalse free =>
          have free := Bool.not_eq_false _ |>.mp free
          split at goes
          case h_1 =>
              split at goes
              case isTrue => cases goes
              case isFalse =>
                  cases goes
                  exact open_ .counting (by decide) free
          case h_2 =>
              cases goes
              exact open_ .counting (by decide) free

theorem fits_advance (fits : t.Fits db) {next : Task}
    (goes : (t.advance db located).2 = .ok (some next)) : next.Fits db := by
  cases t with
  | locating r wanted =>
    rw [Task.advance] at goes
    cases located with
    | error failure => cases goes
    | ok found => exact fits_checkChannel fits goes
  | call c =>
    have on (past : c.stage ≠ .allowing) {stage : Stage} (later : stage ≠ .allowing)
        (same : c.goesOn stage = .ok (some next)) : next.Fits db := by
      cases same
      exact Call.Fits.goesOn fits past later
    rw [Task.advance] at goes
    unfold Call.advance at goes
    cases stage : c.stage with
    | allowing =>
      obtain ⟨reactionId, wants⟩ := fits.asks stage
      rw [stage] at goes
      dsimp only at goes
      split at goes
      case h_1 =>
          split at goes
          case isTrue =>
              cases goes
              exact ⟨fits.resolved, fun same => (by cases same),
                fun _ _ _ _ => ⟨rfl, reactionId, wants⟩⟩
          case isFalse => cases goes
      case h_2 => cases goes
    | counting =>
      rw [stage] at goes
      dsimp only at goes
      split at goes
      case isTrue => cases goes
      case isFalse => exact on (by rw [stage]; decide) (by decide) goes
    | finding =>
      rw [stage] at goes
      dsimp only at goes
      split at goes <;> split at goes
      all_goals first | (cases goes; done) | exact on (by rw [stage]; simp) (by simp) goes
    | deleting id =>
      rw [stage] at goes
      refine on (by rw [stage]; simp) ?_ goes
      split <;> decide
    | creating =>
      rw [stage] at goes
      dsimp only at goes
      split at goes
      case h_1 => exact on (by rw [stage]; decide) (by decide) goes
      case h_2 =>
          split at goes
          case h_1 => cases goes
          case h_2 => exact on (by rw [stage]; decide) (by decide) goes
    | updating =>
      rw [stage] at goes
      cases goes

theorem ended_eq_some {result : Except Failure (Option Task)} (goes : ended result = some t) :
    result = .ok (some t) := by
  cases result with
  | error failure => cases goes
  | ok next => exact congrArg _ goes

theorem obeys_sending :
    Machine.Obeys sending Db.Within (fun db t => t.Fits db) Careful where
  begin := by
    intro w call r _ holds _
    refine ⟨holds.inv, fun t goes => ?_, fun _ fits => fits⟩
    change ((r.resolve w.shared).map (Task.locating r)).toOption = some t at goes
    cases resolved : r.resolve w.shared with
    | error failure => rw [resolved] at goes; cases goes
    | ok wanted =>
      rw [resolved] at goes
      cases goes
      exact resolved
  advance := by
    intro w call t located holds here careful
    have fits := holds.fits call t here
    have unmoved := unmoved_advance t w.shared located
    refine ⟨fun messageId => ?_, fun next goes => ?_, fun _ old => old.moved unmoved⟩
    · have respects := (respects_iff holds.inv fits).mpr (careful t here)
      exact Nat.le_trans (respects.few messageId) (Nat.le_of_eq unmoved.reactionsUniqueMax.symm)
    · exact (fits_advance fits (ended_eq_some goes)).moved unmoved
  disturb := by
    intro w what holds _
    exact ⟨holds.inv, fun _ goes => (by cases goes), fun _ old => old.moved ⟨rfl, rfl, rfl⟩⟩

/-- Nobody has reacted to anything, and nothing is under way. -/
def started (db : Db) : Requests :=
  ⟨{ db with reactions := MessageReactions.empty }, fun _ => none⟩

end

/-! ### An emoji that is not known -/

private def thumbs : Db where
  reactionsUniqueMax := 11
  reaction := fun emoticon => if emoticon = "+1" then some 1 else none
  documentEmoji := fun _ => false
  available := fun _ _ => false
  contents := fun _ => ⟨some 7, 0, false⟩
  reactions := MessageReactions.empty

private def inPrivate : Except Failure Located := .ok ⟨5, none⟩

/-- A user reacts, and asks for an emoji that is not known. -/
private def thenUnknown : List Turn :=
  .start 0 ⟨7, [.emoji "+1"]⟩ inPrivate :: List.replicate 5 (.go 0 inPrivate) ++
    .start 1 ⟨7, [.emoji "?"]⟩ inPrivate :: List.replicate 3 (.go 1 inPrivate)

end Piltover.Reactions.Sending
