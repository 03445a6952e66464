/- source: piltover/app/handlers/stickers.py
   digest: The positions of stickers in their sets, and the moves that keep them right. -/

import Piltover.Foundation.Ranks
import Piltover.Foundation.Runs
import Piltover.Stickers.Sets

set_option autoImplicit false

namespace Piltover.Stickers

open Piltover.Foundation
open Piltover.Foundation.Runs

variable {env : Env} {db db' : Db}

/-- The stickers of a set have the positions `0..n-1`, they are counted, not too many, and hashed. -/
structure Placed (env : Env) (db : Db) (set : Stickerset) : Prop where
  positions : Ranked File.stickerPos (db.filesOf set.id)
  count : set.stickersCount = (db.filesOf set.id).length
  few : (db.filesOf set.id).length ≤ 120
  hash : set.hash = db.hashOf env.md5 set

/-- What holds of every set that has an owner. -/
def Consistent (env : Env) (db : Db) : Prop :=
  ∀ set ∈ db.sets, set.ownerId ≠ none → Placed env db set

def Linked (db : Db) : Prop :=
  ∀ f ∈ db.files, ∀ id, f.stickersetId = some id → ∃ set ∈ db.sets, set.id = id

/-- The index that a request for a position means among `n` stickers. -/
def clampTo (n : Nat) (position : Int) : Int := min (max position 0) (n - 1)

def Db.order (db : Db) (setId : Nat) : List Nat := (db.documents setId).map File.id

/-- What a request does to the order of the stickers, apart from keeping the set consistent. -/
def Event.Does (env : Env) (m : Db) (e : Event) (t : Db) : Prop :=
  match e.request with
  | .changePosition sticker position =>
    ∀ file set, m.getStickerWithSet env e.userId sticker = .ok (file, set) →
      t.order set.id = ((m.order set.id).erase file.id).insertIdx
        (clampTo (m.order set.id).length position).toNat file.id
  | .replace sticker _ =>
    ∀ file set, m.getStickerWithSet env e.userId sticker = .ok (file, set) →
      ∃ made ∉ m.order set.id,
        t.order set.id = (m.order set.id).map fun id => if id = file.id then made else id
  | _ => True

/-- A sticker that is to be moved is there already, and none is to be replaced. -/
def Event.InPlace (env : Env) (db : Db) (e : Event) : Prop :=
  match e.request with
  | .changePosition sticker position =>
    ∀ file set, db.getStickerWithSet env e.userId sticker = .ok (file, set) →
      file.stickerPos = some (clampTo (db.filesOf set.id).length position)
  | .replace _ _ => False
  | _ => True

/-! ### Files of a set after a change -/

section Files

variable {setId : Nat} {f : File}

theorem mem_filesOf : f ∈ db.filesOf setId ↔ f ∈ db.files ∧ f.stickersetId = some setId := by
  simp [Db.filesOf, File.inSet, Table.mem_def]

theorem filesOf_modify (db : Db) (check : File → Bool) (change : File → File)
    (keeps : ∀ f, (change f).id = f.id) (stays : ∀ f, (change f).stickersetId = f.stickersetId)
    (setId : Nat) :
    { db with files := db.files.modify check change keeps }.filesOf setId =
      (db.filesOf setId).map fun f => if check f then change f else f := by
  have same : ((fun f : File => f.inSet setId) ∘ fun f => if check f then change f else f) =
      fun f => f.inSet setId := by
    funext f
    rw [Function.comp_apply]
    split
    · rw [File.inSet, stays, File.inSet]
    · rfl
  rw [Db.filesOf, Table.modify, List.filter_map, same]
  rfl

theorem filesOf_shiftStickers (db : Db) (setId other : Nat) (check : Int → Bool) (amount : Int) :
    (db.shiftStickers setId check amount).filesOf other =
      (db.filesOf other).map fun f =>
        if f.inSet setId && f.posIs check then f.shift amount else f :=
  filesOf_modify db (fun f => f.inSet setId && f.posIs check) (File.shift · amount) (fun _ => rfl)
    (fun _ => rfl) other

theorem filesOf_shiftStickers_ne {other : Nat} (db : Db) (apart : other ≠ setId)
    (check : Int → Bool) (amount : Int) :
    (db.shiftStickers setId check amount).filesOf other = db.filesOf other := by
  rw [filesOf_shiftStickers]
  refine (List.map_congr_left fun f here => ?_).trans (List.map_id _)
  have elsewhere : f.inSet setId = false := by
    rw [File.inSet, (mem_filesOf.mp here).2]
    simpa using apart
  rw [elsewhere, Bool.false_and]
  rfl

theorem filesOf_saveFile_ne {other : Nat} {change : File → File}
    (keeps : ∀ f, (change f).id = f.id) (inside : ∀ f, (change f).stickersetId = f.stickersetId)
    (here : f ∈ db.filesOf setId) (apart : other ≠ setId) :
    (db.saveFile f.id change keeps).filesOf other = db.filesOf other := by
  refine (filesOf_modify db (fun g => g.id == f.id) change keeps inside other).trans ?_
  refine (List.map_congr_left fun g listed => ?_).trans (List.map_id _)
  refine if_neg fun same => ?_
  obtain ⟨known, link⟩ := mem_filesOf.mp listed
  obtain ⟨known', link'⟩ := mem_filesOf.mp here
  obtain rfl := Table.eq_of_key_eq known known' (beq_iff_eq.mp same)
  exact apart (Option.some.inj (link.symm.trans link'))

theorem filesOf_createFile (db : Db) {file : Nat → File}
    (named : (file db.files.nextKey).id = db.files.nextKey) (setId : Nat) : (db.createFile file).filesOf setId =
      db.filesOf setId ++ [file db.files.nextKey].filter fun f => f.inSet setId := by
  have free : db.files.get (file db.files.nextKey).id = none := by
    rw [named]
    exact db.files.get_nextKey
  rw [Db.filesOf, Db.createFile, Table.rows_insert free, List.filter_append]
  rfl

theorem filesOf_refresh (db : Db) (set : Stickerset) (change : Stickerset → Stickerset)
    (keeps : ∀ s, (change s).id = s.id) (other : Nat) :
    (db.refresh env set change keeps).filesOf other = db.filesOf other := rfl

theorem hashOf_congr {set set' : Stickerset} (same : db'.filesOf set.id = db.filesOf set.id)
    (id : set'.id = set.id) (title : set'.title = set.title) :
    db'.hashOf env.md5 set' = db.hashOf env.md5 set := by
  rw [Db.hashOf, Db.hashOf, Stickerset.genForHash, Stickerset.genForHash, Db.documents,
    Db.documents, id, title, same]

theorem Placed.congr {set : Stickerset} (placed : Placed env db set)
    (same : db'.filesOf set.id = db.filesOf set.id) : Placed env db' set where
  positions := same ▸ placed.positions
  count := same ▸ placed.count
  few := same ▸ placed.few
  hash := placed.hash.trans (hashOf_congr same rfl rfl).symm

end Files

/-! ### The order of the stickers of a set -/

section Order

theorem before_iff {f g : File} {p q : Int} (first : f.stickerPos = some p)
    (second : g.stickerPos = some q) : f.Before g ↔ p ≤ q := by
  rw [File.Before, first, second, Option.all_some, Option.any_some, decide_eq_true_iff]

instance : Std.Total File.Before where
  total f g := by
    cases first : f.stickerPos with
    | none => exact .inl (by rw [File.Before, first]; rfl)
    | some p =>
      cases second : g.stickerPos with
      | none => exact .inr (by rw [File.Before, second]; rfl)
      | some q =>
        rw [before_iff first second, before_iff second first]
        exact Int.le_total p q

instance : IsTrans File File.Before where
  trans f g h fg gh := by
    cases first : f.stickerPos with
    | none => rw [File.Before, first]; rfl
    | some p =>
      cases second : g.stickerPos with
      | none =>
        rw [File.Before, first, second] at fg
        cases fg
      | some q =>
        cases third : h.stickerPos with
        | none =>
          rw [File.Before, second, third] at gh
          cases gh
        | some r =>
          rw [before_iff first third]
          exact Int.le_trans ((before_iff first second).mp fg) ((before_iff second third).mp gh)

variable {setId : Nat} {file : File}

theorem length_order (db : Db) (setId : Nat) : (db.order setId).length = (db.filesOf setId).length := by
  rw [Db.order, List.length_map, Db.documents, List.length_insertionSort]

theorem nodup_order (db : Db) (setId : Nat) : (db.order setId).Nodup :=
  ((List.perm_insertionSort _ _).map File.id).nodup_iff.mpr
    (db.files.unique.sublist (List.filter_sublist.map File.id))

theorem order_congr (same : db'.filesOf setId = db.filesOf setId) :
    db'.order setId = db.order setId := by
  rw [Db.order, Db.order, Db.documents, Db.documents, same]

theorem order_getElem?_iff (ranked : Ranked File.stickerPos (db.filesOf setId))
    (here : file ∈ db.filesOf setId) {i : Nat} :
    (db.order setId)[i]? = some file.id ↔ file.stickerPos = some (i : Int) := by
  have sorted : (db.documents setId).map File.stickerPos = ranks (db.documents setId).length := by
    rw [Db.documents, List.length_insertionSort]
    exact ranked.map_insertionSort fun f g p q first second before =>
      (before_iff first second).mp before
  have listed : file ∈ db.documents setId := (List.mem_insertionSort _).mpr here
  rw [Db.order, List.getElem?_map, Option.map_eq_some_iff]
  constructor
  · rintro ⟨f, at', same⟩
    obtain ⟨small, rfl⟩ := List.getElem?_eq_some_iff.mp at'
    have known := (List.mem_insertionSort _).mp (List.getElem_mem small)
    rw [← Table.eq_of_key_eq (mem_filesOf.mp known).1 (mem_filesOf.mp here).1 same]
    exact Ranked.pos_getElem sorted small
  · intro pos
    obtain ⟨j, small, rfl⟩ := List.getElem_of_mem listed
    rw [Ranked.pos_getElem sorted small, Option.some.injEq, Int.ofNat_inj] at pos
    exact ⟨_, pos ▸ List.getElem?_eq_getElem small, rfl⟩

end Order

/-! ### Sets after a change -/

section Sets

variable {set mem : Stickerset} {change : Stickerset → Stickerset}
  {keeps : ∀ s, (change s).id = s.id}

theorem mem_refresh {s : Stickerset} : s ∈ (db.refresh env mem change keeps).sets ↔
    ∃ old ∈ db.sets,
      (if old.id = mem.id then { change old with hash := db.hashOf env.md5 mem } else old) = s := by
  simp only [Db.refresh, Db.saveSet, Table.mem_modify, beq_iff_eq]

/-- The set of a request is right when its files are and its count fits them; the others stay. -/
theorem consistent_refresh (consistent : Consistent env db) (there : set ∈ db.sets)
    (sets : db'.sets = db.sets)
    (others : ∀ id, id ≠ set.id → db'.filesOf id = db.filesOf id)
    (id : mem.id = set.id) (title : (change set).title = mem.title)
    (positions : Ranked File.stickerPos (db'.filesOf set.id))
    (count : (change set).stickersCount = (db'.filesOf set.id).length)
    (few : (db'.filesOf set.id).length ≤ 120) :
    Consistent env (db'.refresh env mem change keeps) := by
  intro s here owned
  obtain ⟨old, listed, rfl⟩ := mem_refresh.mp here
  rw [sets] at listed
  split at owned
  · rename_i same
    obtain rfl := Table.eq_of_key_eq listed there (same.trans id)
    rw [if_pos same]
    have named : (change old).id = old.id := keeps old
    refine ⟨?_, ?_, ?_, ?_⟩
    · show Ranked File.stickerPos (db'.filesOf (change old).id)
      rwa [named]
    · show (change old).stickersCount = (db'.filesOf (change old).id).length
      rwa [named]
    · show (db'.filesOf (change old).id).length ≤ 120
      rwa [named]
    · exact (hashOf_congr (filesOf_refresh db' mem change keeps mem.id) (named.trans id.symm)
        title).symm
  · rename_i other
    rw [if_neg other]
    refine (consistent old listed owned).congr ?_
    exact others old.id fun same => other (same.trans id.symm)

theorem consistent_of_same (consistent : Consistent env db) (sets : db'.sets = db.sets)
    (files : ∀ id, db'.filesOf id = db.filesOf id) : Consistent env db' := by
  intro s here owned
  rw [sets] at here
  exact (consistent s here owned).congr (files s.id)

theorem linked_of (linked : Linked db)
    (files : ∀ f ∈ db'.files, ∀ id, f.stickersetId = some id →
      (∃ g ∈ db.files, g.stickersetId = some id) ∨ ∃ set ∈ db.sets, set.id = id)
    (sets : ∀ s ∈ db.sets, ∃ s' ∈ db'.sets, s'.id = s.id) : Linked db' := by
  intro f here id inside
  have known : ∃ set ∈ db.sets, set.id = id := by
    rcases files f here id inside with ⟨g, old, same⟩ | there
    · exact linked g old id same
    · exact there
  obtain ⟨s, there, rfl⟩ := known
  exact sets s there

theorem exists_mem_refresh (sets : db'.sets = db.sets) {s : Stickerset} (here : s ∈ db.sets) :
    ∃ s' ∈ (db'.refresh env mem change keeps).sets, s'.id = s.id := by
  refine ⟨_, mem_refresh.mpr ⟨s, sets ▸ here, rfl⟩, ?_⟩
  split
  · exact keeps s
  · rfl

theorem linked_refresh (linked : Linked db) (sets : db'.sets = db.sets)
    (files : ∀ f ∈ db'.files, ∀ id, f.stickersetId = some id →
      (∃ g ∈ db.files, g.stickersetId = some id) ∨ ∃ set ∈ db.sets, set.id = id) :
    Linked (db'.refresh env mem change keeps) :=
  linked_of linked files fun _ here => exists_mem_refresh sets here

theorem files_of_modify (db : Db) (check : File → Bool) (change : File → File)
    (keeps : ∀ f, (change f).id = f.id) (stays : ∀ f, (change f).stickersetId = f.stickersetId) :
    ∀ f ∈ db.files.modify check change keeps, ∀ id, f.stickersetId = some id →
      ∃ g ∈ db.files, g.stickersetId = some id := by
  intro f here id inside
  obtain ⟨g, old, rfl⟩ := Table.mem_modify.mp here
  refine ⟨g, old, ?_⟩
  split at inside
  · rwa [stays] at inside
  · exact inside

theorem files_of_shiftStickers (db : Db) (setId : Nat) (check : Int → Bool) (amount : Int) :
    ∀ f ∈ (db.shiftStickers setId check amount).files, ∀ id, f.stickersetId = some id →
      ∃ g ∈ db.files, g.stickersetId = some id :=
  files_of_modify db (fun f => f.inSet setId && f.posIs check) (File.shift · amount)
    (fun _ => rfl) fun _ => rfl

theorem getStickerWithSet_eq_ok {userId : Nat} {sticker : InputDocument} {file : File}
    (ok : db.getStickerWithSet env userId sticker = .ok (file, set)) :
    file ∈ db.filesOf set.id ∧ set ∈ db.sets ∧ set.ownerId = some userId := by
  rw [Db.getStickerWithSet, orRaise_eq_ok] at ok
  obtain ⟨f, found, rest⟩ := Option.bind_eq_some_iff.mp ok
  obtain ⟨s, inside, rest⟩ := Option.bind_eq_some_iff.mp rest
  split at rest
  · rename_i owned
    cases rest
    obtain ⟨id, link, got⟩ := Option.bind_eq_some_iff.mp inside
    obtain ⟨there, named⟩ := Table.get_eq_some_iff.mp got
    have known := (Table.get_eq_some_iff.mp (Option.filter_eq_some_iff.mp found).1).1
    exact ⟨mem_filesOf.mpr ⟨known, by rw [link, named]⟩, there, by simpa using owned⟩
  · cases rest

theorem mem_of_getSet {check : Stickerset → Bool} (found : db.getSet check = some set) :
    set ∈ db.sets := by
  unfold Db.getSet at found
  split at found
  · rename_i s only
    cases found
    have listed : set ∈ db.sets.rows.filter check := only ▸ List.mem_cons_self
    exact (List.mem_filter.mp listed).1
  · cases found

theorem mem_of_setFromInput {userId : Nat} {input : InputStickerset}
    (found : db.setFromInput env userId input = some set) : set ∈ db.sets := by
  cases input with
  | empty => cases found
  | id id accessHash => exact mem_of_getSet (Option.ite_none_right_eq_some.mp found).2
  | shortName name => exact mem_of_getSet found
  | official type => exact mem_of_getSet found

end Sets

end Piltover.Stickers
