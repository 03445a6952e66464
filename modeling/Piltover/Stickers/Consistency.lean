/- source: piltover/app/handlers/stickers.py
   digest: Which requests keep sticker sets consistent. -/

import Piltover.Stickers.Positions

set_option autoImplicit false

namespace Piltover.Stickers

open Piltover.Foundation
open Piltover.Foundation.Runs

variable {env : Env} {db db' : Db} {cached : Cached} {userId : Nat}

/-- What holds between requests. -/
structure Sound (env : Env) (db : Db) : Prop where
  consistent : Consistent env db
  linked : Linked db

/-! ### Renaming, and other changes that leave the positions -/

theorem owner_ne_none {set : Stickerset} (owned : set.ownerId = some userId) :
    set.ownerId ≠ none := by
  rw [owned]
  exact Option.some_ne_none _

theorem setFromInput_owned {input : InputStickerset} {set : Stickerset}
    (found : ((db.setFromInput env userId input).filter fun s => s.ownerId == some userId) =
      some set) : set ∈ db.sets ∧ set.ownerId = some userId := by
  obtain ⟨here, owned⟩ := Option.filter_eq_some_iff.mp found
  exact ⟨mem_of_setFromInput here, by simpa using owned⟩

theorem sound_rename {input : InputStickerset} {title : String} (sound : Sound env db)
    (ok : db.renameStickerset env cached userId input title = .ok db') : Sound env db' := by
  obtain ⟨set, found, rest⟩ := orRaise_bind_eq_ok.mp ok
  obtain ⟨-, rest⟩ := check_bind_eq_ok.mp rest
  obtain ⟨-, rest⟩ := check_bind_eq_ok.mp rest
  cases rest
  obtain ⟨there, owned⟩ := setFromInput_owned found
  have placed := sound.consistent set there (owner_ne_none owned)
  exact ⟨consistent_refresh sound.consistent there rfl (fun _ _ => rfl) rfl rfl placed.positions
      placed.count placed.few,
    linked_refresh sound.linked rfl fun f here _ inside => .inl ⟨f, here, inside⟩⟩

theorem sound_saveFile {set : Stickerset} {file : File} {change : File → File}
    {keeps : ∀ f, (change f).id = f.id} (sound : Sound env db) (there : set ∈ db.sets)
    (owned : set.ownerId = some userId) (here : file ∈ db.filesOf set.id)
    (inside : ∀ f, (change f).stickersetId = f.stickersetId)
    (stays : ∀ f, (change f).stickerPos = f.stickerPos) :
    Sound env ((db.saveFile file.id change keeps).refresh env set id fun _ => rfl) := by
  have placed := sound.consistent set there (owner_ne_none owned)
  have files : (db.saveFile file.id change keeps).filesOf set.id =
      (db.filesOf set.id).map fun f => if (f.id == file.id) = true then change f else f :=
    filesOf_modify db (fun f => f.id == file.id) change keeps inside set.id
  refine ⟨consistent_refresh sound.consistent there rfl ?_ rfl rfl ?_ ?_ ?_,
    linked_refresh sound.linked rfl fun f listed id linked =>
      .inl (files_of_modify db _ change keeps inside f listed id linked)⟩
  · exact fun _ apart => filesOf_saveFile_ne keeps inside here apart
  · rw [files]
    refine placed.positions.map fun f _ => ?_
    split
    · exact stays f
    · rfl
  · rw [files, List.length_map]
    exact placed.count
  · rw [files, List.length_map]
    exact placed.few

theorem sound_change {sticker : InputDocument} {emoji : Option String}
    {maskCoords : Option MaskCoords} (sound : Sound env db)
    (ok : db.changeSticker env cached userId sticker emoji maskCoords = .ok db') :
    Sound env db' := by
  obtain ⟨⟨file, set⟩, found, rest⟩ := (bind_eq_ok _).mp ok
  obtain ⟨here, there, owned⟩ := getStickerWithSet_eq_ok found
  dsimp only at rest
  split at rest
  · obtain ⟨-, rest⟩ := check_bind_eq_ok.mp rest
    cases rest
    exact sound
  · obtain ⟨-, rest⟩ := check_bind_eq_ok.mp rest
    obtain ⟨-, rest⟩ := check_bind_eq_ok.mp rest
    cases rest
    exact sound_saveFile sound there owned here (fun _ => rfl) fun _ => rfl

/-! ### Stickers that come and go -/

theorem makeStickerFromFile_eq_ok {id : Nat} {file made : File} {set : Stickerset}
    {pos : Option Int} {input : InputSticker} {mask : Bool}
    (ok : env.makeStickerFromFile id file set pos input mask = .ok made) :
    made.id = id ∧ made.stickersetId = some set.id ∧ made.stickerPos = pos := by
  obtain ⟨-, rest⟩ := check_bind_eq_ok.mp ok
  obtain ⟨-, rest⟩ := check_bind_eq_ok.mp rest
  cases rest
  exact ⟨rfl, rfl, rfl⟩

section Created

variable {set : Stickerset} {made : File}

theorem filesOf_createFile_self (named : made.id = db.files.nextKey)
    (inside : made.stickersetId = some set.id) :
    (db.createFile fun _ => made).filesOf set.id = db.filesOf set.id ++ [made] := by
  rw [filesOf_createFile db named]
  simp [File.inSet, inside]

theorem filesOf_createFile_ne {setId : Nat} (named : made.id = db.files.nextKey)
    (apart : made.stickersetId ≠ some setId) :
    (db.createFile fun _ => made).filesOf setId = db.filesOf setId := by
  rw [filesOf_createFile db named]
  simp [File.inSet, apart]

theorem mem_createFile (named : made.id = db.files.nextKey) {f : File} :
    f ∈ (db.createFile fun _ => made).files ↔ f ∈ db.files ∨ f = made :=
  Table.mem_insert (by
    rw [named]
    exact db.files.get_nextKey)

end Created

theorem sound_add {input : InputStickerset} {sticker : InputSticker} (sound : Sound env db)
    (ok : db.addStickerToSet env cached userId input sticker = .ok db') : Sound env db' := by
  obtain ⟨set, found, rest⟩ := orRaise_bind_eq_ok.mp ok
  obtain ⟨⟨files, _⟩, -, rest⟩ := (bind_eq_ok _).mp rest
  obtain ⟨file, -, rest⟩ := orRaise_bind_eq_ok.mp rest
  obtain ⟨few, rest⟩ := check_bind_eq_ok.mp rest
  obtain ⟨made, make, rest⟩ := (bind_eq_ok _).mp rest
  obtain ⟨-, rest⟩ := check_bind_eq_ok.mp rest
  cases rest
  obtain ⟨there, owned⟩ := setFromInput_owned found
  have placed := sound.consistent set there (owner_ne_none owned)
  obtain ⟨named, inside, pos⟩ := makeStickerFromFile_eq_ok make
  have files' := filesOf_createFile_self named inside
  have room : (db.filesOf set.id).length < 120 := of_decide_eq_true (require_eq_ok.mp few)
  refine ⟨consistent_refresh sound.consistent there rfl ?_ rfl rfl ?_ ?_ ?_, ?_⟩
  · intro id apart
    refine filesOf_createFile_ne named ?_
    rw [inside]
    exact fun same => apart (Option.some.inj same).symm
  · rw [files']
    exact placed.positions.concat pos
  · rw [files', List.length_append, List.length_singleton]
    show set.stickersCount + 1 = _
    rw [placed.count]
    rfl
  · rw [files', List.length_append, List.length_singleton]
    exact room
  · refine linked_refresh sound.linked rfl fun f here id linked => ?_
    rcases (mem_createFile named).mp here with old | rfl
    · exact .inl ⟨f, old, linked⟩
    · exact .inr ⟨set, there, Option.some.inj (inside.symm.trans linked)⟩

theorem filesOf_perm_cons {setId : Nat} {file : File} (here : file ∈ db.filesOf setId) :
    (db.filesOf setId).Perm (file :: (db.filesOf setId).filter fun f => !(f.id == file.id)) := by
  have distinct : (db.filesOf setId).Nodup :=
    (List.Nodup.of_map _ db.files.unique).filter _
  refine (List.perm_cons_erase here).trans (List.Perm.of_eq ?_)
  rw [distinct.erase_eq_filter]
  congr 1
  refine List.filter_congr fun f there => ?_
  have same : f.id = file.id ↔ f = file :=
    ⟨Table.eq_of_key_eq (mem_filesOf.mp there).1 (mem_filesOf.mp here).1, congrArg File.id⟩
  by_cases equal : f = file
  · simp [equal]
  · rw [bne, beq_eq_false_iff_ne.mpr equal, beq_eq_false_iff_ne.mpr (mt same.mp equal)]

theorem sound_remove {sticker : InputDocument} (sound : Sound env db)
    (ok : db.removeStickerFromSet env cached userId sticker = .ok db') : Sound env db' := by
  obtain ⟨⟨file, set⟩, found, rest⟩ := (bind_eq_ok _).mp ok
  obtain ⟨-, rest⟩ := check_bind_eq_ok.mp rest
  cases rest
  obtain ⟨here, there, owned⟩ := getStickerWithSet_eq_ok found
  have placed := sound.consistent set there (owner_ne_none owned)
  have perm := filesOf_perm_cons here
  have ranked := placed.positions.perm perm
  obtain ⟨p, -, pos⟩ := ranked.exists_pos List.mem_cons_self
  have length := perm.length_eq
  rw [List.length_cons] at length
  have deleted : ∀ id, { db with files := db.files.remove fun f => f.id == file.id }.filesOf id =
      (db.filesOf id).filter fun f => !(f.id == file.id) := by
    intro id
    rw [Db.filesOf, Db.filesOf, Table.remove, List.filter_filter, List.filter_filter]
    exact List.filter_congr fun f _ => Bool.and_comm _ _
  have shifted := filesOf_shiftStickers { db with files := db.files.remove fun f => f.id == file.id }
    set.id set.id (fun p => file.posIs fun q => decide (q < p)) (-1)
  rw [deleted] at shifted
  refine ⟨consistent_refresh sound.consistent there rfl ?_ rfl rfl ?_ ?_ ?_, ?_⟩
  · intro id apart
    rw [filesOf_shiftStickers_ne _ apart, deleted]
    refine List.filter_eq_self.mpr fun f listed => ?_
    rw [Bool.not_eq_true', beq_eq_false_iff_ne]
    intro same
    obtain ⟨known, inside⟩ := mem_filesOf.mp listed
    obtain rfl := Table.eq_of_key_eq known (mem_filesOf.mp here).1 same
    exact apart (Option.some.inj (inside.symm.trans (mem_filesOf.mp here).2))
  · rw [shifted]
    refine ranked.tail_shift pos fun f listed => ?_
    have inside : f.inSet set.id = true := by
      rw [File.inSet, (mem_filesOf.mp (List.mem_filter.mp listed).1).2]
      exact beq_self_eq_true _
    rw [inside, Bool.true_and]
    cases at' : f.stickerPos with
    | none => simp [File.posIs, at']
    | some q =>
      by_cases behind : (p : Int) < q
      · simp [File.posIs, File.shift, at', pos, behind]
        rfl
      · simp [File.posIs, at', pos, behind]
  · rw [shifted, List.length_map]
    show set.stickersCount - 1 = _
    rw [placed.count]
    omega
  · rw [shifted, List.length_map]
    have := placed.few
    omega
  · refine linked_refresh sound.linked rfl fun f listed id inside => .inl ?_
    obtain ⟨g, old, same⟩ := files_of_shiftStickers _ _ _ _ f listed id inside
    exact ⟨g, (Table.mem_remove.mp old).1, same⟩

/-! ### New sets -/

theorem Sound.congr (sound : Sound env db) (files : db'.files = db.files)
    (sets : db'.sets = db.sets) : Sound env db' where
  consistent := consistent_of_same sound.consistent sets fun id => by
    rw [Db.filesOf, files]
    rfl
  linked := by
    intro f here
    rw [files] at here
    rw [sets]
    exact sound.linked f here

/-- Stickers have come to a set and nothing else has changed. -/
structure Grows (set : Stickerset) (db db' : Db) (n : Nat) : Prop where
  sets : db'.sets = db.sets
  others : ∀ id, id ≠ set.id → db'.filesOf id = db.filesOf id
  positions : Ranked File.stickerPos (db.filesOf set.id) →
    Ranked File.stickerPos (db'.filesOf set.id)
  length : (db'.filesOf set.id).length = (db.filesOf set.id).length + n
  files : ∀ f ∈ db'.files, ∀ id, f.stickersetId = some id →
    (∃ g ∈ db.files, g.stickersetId = some id) ∨ id = set.id

namespace Grows

variable {set : Stickerset} {db'' : Db} {n m : Nat}

theorem refl (set : Stickerset) (db : Db) : Grows set db db 0 :=
  ⟨rfl, fun _ _ => rfl, fun ranked => ranked, rfl, fun f here _ inside => .inl ⟨f, here, inside⟩⟩

theorem trans (first : Grows set db db' n) (second : Grows set db' db'' m) :
    Grows set db db'' (n + m) where
  sets := second.sets.trans first.sets
  others := fun id apart => (second.others id apart).trans (first.others id apart)
  positions := fun ranked => second.positions (first.positions ranked)
  length := by
    rw [second.length, first.length, Nat.add_assoc]
  files := by
    intro f here id inside
    rcases second.files f here id inside with ⟨g, old, same⟩ | there
    · exact first.files g old id same
    · exact .inr there

end Grows

theorem grows_createSticker {set : Stickerset} {made : File} (named : made.id = db.files.nextKey)
    (inside : made.stickersetId = some set.id)
    (pos : made.stickerPos = some ((db.filesOf set.id).length : Int)) :
    Grows set db (db.createFile fun _ => made) 1 where
  sets := rfl
  others := by
    intro id apart
    refine filesOf_createFile_ne named ?_
    rw [inside]
    exact fun same => apart (Option.some.inj same).symm
  positions := by
    rw [filesOf_createFile_self named inside]
    exact fun ranked => ranked.concat pos
  length := by
    rw [filesOf_createFile_self named inside, List.length_append, List.length_singleton]
  files := by
    intro f here id linked
    rcases (mem_createFile named).mp here with old | rfl
    · exact .inl ⟨f, old, linked⟩
    · exact .inr (Option.some.inj (linked.symm.trans inside))

theorem grows_createOutside {set : Stickerset} {made : File} (named : made.id = db.files.nextKey)
    (outside : made.stickersetId = none) : Grows set db (db.createFile fun _ => made) 0 := by
  have same : ∀ id, (db.createFile fun _ => made).filesOf id = db.filesOf id := by
    intro id
    refine filesOf_createFile_ne named ?_
    rw [outside]
    exact (Option.some_ne_none id).symm
  refine ⟨rfl, fun id _ => same id, ?_, ?_, ?_⟩
  · rw [same]
    exact id
  · rw [same, Nat.add_zero]
  · intro f here id linked
    rcases (mem_createFile named).mp here with old | rfl
    · exact .inl ⟨f, old, linked⟩
    · rw [outside] at linked
      cases linked

theorem grows_createStickers {set : Stickerset} {mask : Bool} {inputs : List (File × InputSticker)}
    {pos : Nat} (last : pos = (db.filesOf set.id).length)
    (ok : Db.createStickers env set mask pos inputs db = .ok db') :
    Grows set db db' inputs.length := by
  induction inputs generalizing db pos with
  | nil =>
    cases ok
    exact Grows.refl set _
  | cons first rest ih =>
    obtain ⟨made, make, later⟩ := (bind_eq_ok _).mp ok
    obtain ⟨named, inside, at'⟩ := makeStickerFromFile_eq_ok make
    have grown := grows_createSticker named inside (at'.trans (by rw [last]))
    have all := grown.trans (ih (by rw [grown.length, last]) later)
    rwa [Nat.add_comm] at all

theorem grows_createThumb {set : Stickerset} {isEmoji : Bool} {thumb : Option InputDocument}
    (ok : Db.createThumb env db userId set isEmoji thumb = .ok db') : Grows set db db' 0 := by
  cases thumb with
  | none =>
    cases ok
    exact Grows.refl set _
  | some doc =>
    obtain ⟨file, -, rest⟩ := (bind_eq_ok _).mp ok
    cases rest
    have grown : Grows set db (db.createFile fun _ =>
        ⟨db.files.nextKey, file.mimeType, .document, none, none, none, false, none⟩) 0 :=
      grows_createOutside rfl rfl
    exact ⟨grown.sets, grown.others, grown.positions, grown.length, grown.files⟩

theorem filesOf_new (linked : Linked db) : db.filesOf db.sets.nextKey = [] := by
  refine List.eq_nil_iff_forall_not_mem.mpr fun f here => ?_
  obtain ⟨known, inside⟩ := mem_filesOf.mp here
  obtain ⟨set, there, same⟩ := linked f known _ inside
  exact absurd same (Nat.ne_of_lt (db.sets.lt_nextKey there))

theorem sound_newSet {set : Stickerset} {n : Nat} (change : Stickerset → Stickerset)
    (keeps : ∀ s, (change s).id = s.id) (sound : Sound env db) (named : set.id = db.sets.nextKey)
    (unowned : set.ownerId = none) (grown : Grows set { db with sets := db.sets.insert set } db' n)
    (few : n ≤ 120) (title : (change set).title = set.title)
    (count : (change set).stickersCount = (db'.filesOf set.id).length) :
    Sound env (db'.refresh env set change keeps) := by
  have free : db.sets.get set.id = none := by
    rw [named]
    exact db.sets.get_nextKey
  have there : set ∈ db.sets.insert set := (Table.mem_insert free).mpr (.inr rfl)
  have nothing : db.filesOf set.id = [] := by
    rw [named]
    exact filesOf_new sound.linked
  have consistent : Consistent env { db with sets := db.sets.insert set } := by
    intro s here owned
    rcases (Table.mem_insert free).mp here with old | rfl
    · exact (sound.consistent s old owned).congr rfl
    · exact absurd unowned owned
  have linked : Linked { db with sets := db.sets.insert set } :=
    linked_of sound.linked (fun f here _ inside => .inl ⟨f, here, inside⟩) fun s here =>
      ⟨s, (Table.mem_insert free).mpr (.inl here), rfl⟩
  have length : (db'.filesOf set.id).length = n := by
    refine grown.length.trans ?_
    show (db.filesOf set.id).length + n = n
    rw [nothing, List.length_nil, Nat.zero_add]
  refine ⟨consistent_refresh consistent there grown.sets grown.others rfl title ?_ count ?_,
    linked_refresh linked grown.sets fun f here id inside => ?_⟩
  · refine grown.positions ?_
    show Ranked File.stickerPos (db.filesOf set.id)
    rw [nothing]
    exact Ranked.nil _
  · rw [length]
    exact few
  · exact (grown.files f here id inside).imp_right fun same => ⟨set, there, same.symm⟩

theorem sound_create {r : CreateStickerset} (sound : Sound env db)
    (ok : db.createStickerset env cached userId r = .ok db') : Sound env db' := by
  obtain ⟨-, rest⟩ := check_bind_eq_ok.mp ok
  obtain ⟨-, rest⟩ := check_bind_eq_ok.mp rest
  obtain ⟨-, rest⟩ := check_bind_eq_ok.mp rest
  obtain ⟨few, rest⟩ := check_bind_eq_ok.mp rest
  obtain ⟨⟨files, setType⟩, -, rest⟩ := (bind_eq_ok _).mp rest
  obtain ⟨type, -, rest⟩ := orRaise_bind_eq_ok.mp rest
  obtain ⟨thumbed, thumb, rest⟩ := (bind_eq_ok _).mp rest
  obtain ⟨stocked, stock, rest⟩ := (bind_eq_ok _).mp rest
  obtain ⟨-, rest⟩ := check_bind_eq_ok.mp rest
  cases rest
  have first := grows_createThumb thumb
  have empty : 0 = (thumbed.filesOf db.sets.nextKey).length := by
    rw [first.length]
    exact (congrArg List.length (filesOf_new sound.linked)).symm
  have grown := first.trans (grows_createStickers empty stock)
  refine (sound_newSet (fun s => { s with
    ownerId := some userId
    stickersCount := (stocked.documents db.sets.nextKey).length }) (fun _ => rfl) sound rfl rfl grown
    ?_ rfl ?_).congr rfl rfl
  · have short : (files.zip r.stickers).length ≤ r.stickers.length := by
      rw [List.length_zip]
      exact Nat.min_le_right _ _
    have bound : r.stickers.length ≤ 120 := of_decide_eq_true (require_eq_ok.mp few)
    omega
  · show ((stocked.documents db.sets.nextKey).length : Int) = _
    rw [Db.documents, List.length_insertionSort]

/-! ### Moving a sticker -/

section Moving

variable {file : File} {set : Stickerset} {position : Int}

theorem newPos_eq {n : Nat} (some' : 0 < n) (position : Int) :
    max 0 (min ((n : Int) - 1) position) = clampTo n position := by
  unfold clampTo
  omega

theorem clampTo_bounds {n : Nat} (some' : 0 < n) (position : Int) :
    0 ≤ clampTo n position ∧ clampTo n position < n := by
  unfold clampTo
  omega

theorem filesOf_moved_same {check : Int → Bool} {amount new : Int}
    (pos : file.stickerPos = some new) (here : file ∈ db.filesOf set.id)
    (only : ∀ f ∈ db.filesOf set.id, f.posIs check = true → f = file) (id : Nat) :
    ((db.shiftStickers set.id check amount).saveFile file.id
      (fun f => { f with stickerPos := some new }) fun _ => rfl).filesOf id = db.filesOf id := by
  refine (filesOf_modify _ (fun f => f.id == file.id) (fun f => { f with stickerPos := some new })
    (fun _ => rfl) (fun _ => rfl) id).trans ?_
  rw [filesOf_shiftStickers, List.map_map]
  refine (List.map_congr_left fun f listed => ?_).trans (List.map_id _)
  obtain ⟨known, inside⟩ := mem_filesOf.mp listed
  rw [Function.comp_apply, id_eq]
  by_cases same : f.id = file.id
  · obtain rfl := Table.eq_of_key_eq known (mem_filesOf.mp here).1 same
    have back : ∀ g : File, g = f ∨ g = f.shift amount →
        (if (g.id == f.id) = true then { g with stickerPos := some new } else g) = f := by
      rintro g (rfl | rfl)
      · rw [if_pos (beq_self_eq_true _), ← pos]
      · have named : ((f.shift amount).id == f.id) = true := beq_self_eq_true f.id
        rw [if_pos named, ← pos]
        rfl
    refine back _ ?_
    split
    · exact .inr rfl
    · exact .inl rfl
  · have stays : ¬ (f.inSet set.id && f.posIs check) = true := by
      intro both
      obtain ⟨in', checked⟩ := Bool.and_eq_true_iff.mp both
      have there : f ∈ db.filesOf set.id := mem_filesOf.mpr ⟨known, beq_iff_eq.mp in'⟩
      exact same (congrArg File.id (only f there checked))
    rw [if_neg stays, if_neg (mt beq_iff_eq.mp same)]

/-- The code shifts a sticker that stands where the one of the request should come. -/
theorem shifted_at {n : Nat} (some' : 0 < n) {p : Int} (low : 0 ≤ p) (high : p < n) :
    (position < clampTo n position →
        ((decide (position < p) && decide (p ≤ clampTo n position)) = true ↔
          p = clampTo n position)) ∧
      (clampTo n position < position →
        ((decide (clampTo n position ≤ p) && decide (p < position)) = true ↔
          p = clampTo n position)) := by
  simp only [Bool.and_eq_true, decide_eq_true_eq]
  unfold clampTo
  omega

/-- What the request does where it does not find the position in range. -/
inductive Shifted (position : Int) (n : Nat) : (Int → Bool) → Int → Prop
  | below (low : position < clampTo n position) (zero : clampTo n position = 0) :
      Shifted position n
        (fun p => decide (position < p) && decide (p ≤ clampTo n position)) (-1)
  | above (high : clampTo n position < position) (last : clampTo n position = n - 1) :
      Shifted position n
        (fun p => decide (clampTo n position ≤ p) && decide (p < position)) 1

theorem Shifted.check_iff {n : Nat} {check : Int → Bool} {amount : Int}
    (shifted : Shifted position n check amount) (some' : 0 < n) {p : Int} (low : 0 ≤ p)
    (high : p < n) : check p = true ↔ p = clampTo n position := by
  cases shifted with
  | below less _ => exact (shifted_at some' low high).1 less
  | above more _ => exact (shifted_at some' low high).2 more

theorem Shifted.outside {n : Nat} {check : Int → Bool} {amount : Int}
    (shifted : Shifted position n check amount) :
    clampTo n position + amount < 0 ∨ (n : Int) ≤ clampTo n position + amount := by
  cases shifted with
  | below _ zero => omega
  | above _ last => omega

theorem changeStickerPosition_eq_ok {sticker : InputDocument}
    (ok : db.changeStickerPosition env cached userId sticker position = .ok db') :
    ∃ file set, db.getStickerWithSet env userId sticker = .ok (file, set) ∧
      ((position = clampTo (db.filesOf set.id).length position ∧ db' = db) ∨
        ∃ check amount, Shifted position (db.filesOf set.id).length check amount ∧
          db' = ((db.shiftStickers set.id check amount).saveFile file.id
            (fun f => { f with
              stickerPos := some (clampTo (db.filesOf set.id).length position) })
            fun _ => rfl).refresh env set id fun _ => rfl) := by
  obtain ⟨⟨file, set⟩, found, rest⟩ := (bind_eq_ok _).mp ok
  refine ⟨file, set, found, ?_⟩
  have some' : 0 < (db.filesOf set.id).length :=
    List.length_pos_of_mem (getStickerWithSet_eq_ok found).1
  dsimp only at rest
  rw [Db.documents, List.length_insertionSort, newPos_eq some'] at rest
  split at rest
  · rename_i same
    obtain ⟨-, rest⟩ := check_bind_eq_ok.mp rest
    cases rest
    exact .inl ⟨same, rfl⟩
  · rename_i apart
    obtain ⟨-, rest⟩ := check_bind_eq_ok.mp rest
    cases rest
    right
    split
    · rename_i less
      refine ⟨_, _, .below less ?_, rfl⟩
      unfold clampTo at less ⊢
      omega
    · rename_i notLess
      refine ⟨_, _, .above (by omega) ?_, rfl⟩
      unfold clampTo at apart notLess ⊢
      omega

theorem moved_in_place {check : Int → Bool} {amount : Int} (sound : Sound env db)
    (here : file ∈ db.filesOf set.id) (there : set ∈ db.sets) (owned : set.ownerId = some userId)
    (pos : file.stickerPos = some (clampTo (db.filesOf set.id).length position))
    (shifted : Shifted position (db.filesOf set.id).length check amount) (id : Nat) :
    ((db.shiftStickers set.id check amount).saveFile file.id
      (fun f => { f with stickerPos := some (clampTo (db.filesOf set.id).length position) })
      fun _ => rfl).filesOf id = db.filesOf id := by
  have placed := sound.consistent set there (owner_ne_none owned)
  refine filesOf_moved_same pos here (fun f listed checked => ?_) id
  obtain ⟨i, small, at'⟩ := placed.positions.exists_pos listed
  rw [File.posIs, at', Option.any_some, shifted.check_iff (List.length_pos_of_mem here)
    (Int.natCast_nonneg i) (Int.ofNat_lt.mpr small)] at checked
  exact placed.positions.eq_of_pos listed here (by rw [at', checked, pos])

theorem sound_of_same {change : File → File} {keeps : ∀ f, (change f).id = f.id}
    {check : Int → Bool} {amount : Int} {fileId : Nat} (sound : Sound env db)
    (there : set ∈ db.sets) (owned : set.ownerId = some userId)
    (inside : ∀ f, (change f).stickersetId = f.stickersetId)
    (same : ∀ id, ((db.shiftStickers set.id check amount).saveFile fileId change keeps).filesOf id =
      db.filesOf id) :
    Sound env (((db.shiftStickers set.id check amount).saveFile fileId change keeps).refresh env set
      id fun _ => rfl) := by
  have placed := sound.consistent set there (owner_ne_none owned)
  refine ⟨consistent_refresh sound.consistent there rfl (fun id _ => same id) rfl rfl ?_ ?_ ?_,
    linked_refresh sound.linked rfl fun f listed id linked => .inl ?_⟩
  · rw [same]
    exact placed.positions
  · rw [same]
    exact placed.count
  · rw [same]
    exact placed.few
  · obtain ⟨g, old, same'⟩ := files_of_modify _ _ change keeps inside f listed id linked
    exact files_of_shiftStickers db set.id check amount g old id same'

theorem ranked_of_refresh {mem : Stickerset} (consistent : Consistent env
      (db'.refresh env mem id fun _ => rfl)) (there : set ∈ db'.sets) (named : mem.id = set.id)
    (owned : set.ownerId = some userId) : Ranked File.stickerPos (db'.filesOf set.id) := by
  have listed : { set with hash := db'.hashOf env.md5 mem } ∈
      (db'.refresh env mem id fun _ => rfl).sets :=
    mem_refresh.mpr ⟨set, there, if_pos named.symm⟩
  exact (consistent _ listed (owner_ne_none owned)).positions

theorem not_ranked_of_moved {check : Int → Bool} {amount new : Int}
    (ranked : Ranked File.stickerPos (db.filesOf set.id)) (here : file ∈ db.filesOf set.id)
    (shifted : Shifted position (db.filesOf set.id).length check amount)
    (elsewhere : file.stickerPos ≠ some (clampTo (db.filesOf set.id).length position)) :
    ¬ Ranked File.stickerPos (((db.shiftStickers set.id check amount).saveFile file.id
      (fun f => { f with stickerPos := some new }) fun _ => rfl).filesOf set.id) := by
  intro after
  have some' : 0 < (db.filesOf set.id).length := List.length_pos_of_mem here
  obtain ⟨low, high⟩ := clampTo_bounds some' position
  obtain ⟨c, cast⟩ : ∃ c : Nat, clampTo (db.filesOf set.id).length position = c :=
    ⟨_, (Int.toNat_of_nonneg low).symm⟩
  have small : c < (db.filesOf set.id).length := by omega
  obtain ⟨g, listed, at'⟩ := ranked.exists_at small
  rw [← cast] at at'
  have apart : ¬ (g.shift amount).id = file.id := by
    intro same
    obtain rfl := Table.eq_of_key_eq (mem_filesOf.mp listed).1 (mem_filesOf.mp here).1 same
    exact elsewhere at'
  have checked : (g.inSet set.id && g.posIs check) = true := by
    rw [File.inSet, (mem_filesOf.mp listed).2, File.posIs, at', Option.any_some,
      (shifted.check_iff some' low high).mpr rfl, beq_self_eq_true, Bool.true_and]
  have saved := filesOf_modify (db.shiftStickers set.id check amount) (fun f => f.id == file.id)
    (fun f => { f with stickerPos := some new }) (fun _ => rfl) (fun _ => rfl) set.id
  have first : g.shift amount ∈ (db.shiftStickers set.id check amount).filesOf set.id := by
    rw [filesOf_shiftStickers]
    exact List.mem_map.mpr ⟨g, listed, if_pos checked⟩
  have length : (((db.shiftStickers set.id check amount).saveFile file.id
      (fun f => { f with stickerPos := some new }) fun _ => rfl).filesOf set.id).length =
        (db.filesOf set.id).length := by
    refine (congrArg List.length saved).trans ?_
    rw [List.length_map, filesOf_shiftStickers, List.length_map]
  have moved : g.shift amount ∈ ((db.shiftStickers set.id check amount).saveFile file.id
      (fun f => { f with stickerPos := some new }) fun _ => rfl).filesOf set.id :=
    saved ▸ List.mem_map.mpr ⟨_, first, if_neg (mt beq_iff_eq.mp apart)⟩
  obtain ⟨i, less, pos⟩ := after.exists_pos moved
  rw [File.shift, at', Option.map_some, Option.some.injEq] at pos
  rw [length] at less
  have outside := shifted.outside
  omega

end Moving

/-! ### Which requests keep the sets consistent -/

section Requests

variable {e : Event}

theorem run_of_step (happens : step env db e = some db') : e.run env db = .ok db' := by
  unfold step at happens
  cases ran : e.run env db with
  | error failure =>
    rw [ran] at happens
    cases happens
  | ok t =>
    rw [ran] at happens
    cases happens
    rfl

theorem changePosition_in_place {sticker : InputDocument} {position : Int} (sound : Sound env db)
    (inPlace : ∀ file set, db.getStickerWithSet env userId sticker = .ok (file, set) →
      file.stickerPos = some (clampTo (db.filesOf set.id).length position))
    (ok : db.changeStickerPosition env cached userId sticker position = .ok db') :
    Sound env db' ∧ ∀ file set, db.getStickerWithSet env userId sticker = .ok (file, set) →
      db'.order set.id = ((db.order set.id).erase file.id).insertIdx
        (clampTo (db.order set.id).length position).toNat file.id := by
  obtain ⟨file, set, found, result⟩ := changeStickerPosition_eq_ok ok
  obtain ⟨here, there, owned⟩ := getStickerWithSet_eq_ok found
  have pos := inPlace file set found
  have kept : Sound env db' ∧ db'.filesOf set.id = db.filesOf set.id := by
    rcases result with ⟨-, rfl⟩ | ⟨check, amount, shifted, rfl⟩
    · exact ⟨sound, rfl⟩
    · have same := moved_in_place sound here there owned pos shifted
      exact ⟨sound_of_same sound there owned (fun _ => rfl) same, same set.id⟩
  refine ⟨kept.1, fun file' set' found' => ?_⟩
  cases found.symm.trans found'
  have ranked := (sound.consistent set there (owner_ne_none owned)).positions
  have low := (clampTo_bounds (List.length_pos_of_mem here) position).1
  rw [order_congr kept.2, length_order]
  refine (insertIdx_erase (nodup_order db set.id) ?_).symm
  rw [order_getElem?_iff ranked here, Int.toNat_of_nonneg low]
  exact pos

theorem not_changePosition {sticker : InputDocument} {position : Int} (sound : Sound env db)
    (ok : db.changeStickerPosition env cached userId sticker position = .ok db')
    (consistent : Consistent env db')
    (moves : ∀ file set, db.getStickerWithSet env userId sticker = .ok (file, set) →
      db'.order set.id = ((db.order set.id).erase file.id).insertIdx
        (clampTo (db.order set.id).length position).toNat file.id) :
    ∀ file set, db.getStickerWithSet env userId sticker = .ok (file, set) →
      file.stickerPos = some (clampTo (db.filesOf set.id).length position) := by
  obtain ⟨file, set, found, result⟩ := changeStickerPosition_eq_ok ok
  intro file' set' found'
  cases found.symm.trans found'
  obtain ⟨here, there, owned⟩ := getStickerWithSet_eq_ok found
  have ranked := (sound.consistent set there (owner_ne_none owned)).positions
  obtain ⟨low, high⟩ := clampTo_bounds (List.length_pos_of_mem here) position
  rcases result with ⟨-, rfl⟩ | ⟨check, amount, shifted, rfl⟩
  · -- nothing has been moved, so the sticker was there before
    have at' := congrArg (fun l => l[(clampTo (db'.order set.id).length position).toNat]?)
      (moves file set found)
    have listed : file.id ∈ db'.order set.id :=
      List.mem_map_of_mem ((List.mem_insertionSort _).mpr here)
    rw [List.getElem?_insertIdx_self, List.length_erase_of_mem listed, length_order,
      if_pos (by omega), order_getElem?_iff ranked here, Int.toNat_of_nonneg low] at at'
    exact at'
  · by_contra elsewhere
    exact not_ranked_of_moved ranked here shifted elsewhere
      (ranked_of_refresh consistent there rfl owned)

theorem not_replace {sticker : InputDocument} {newSticker : InputSticker}
    (ok : db.replaceSticker env cached userId sticker newSticker = .ok db') :
    ¬ Consistent env db' := by
  intro consistent
  obtain ⟨⟨file, set⟩, found, rest⟩ := (bind_eq_ok _).mp ok
  obtain ⟨⟨files, _⟩, -, rest⟩ := (bind_eq_ok _).mp rest
  obtain ⟨new, -, rest⟩ := orRaise_bind_eq_ok.mp rest
  obtain ⟨made, make, rest⟩ := (bind_eq_ok _).mp rest
  obtain ⟨-, rest⟩ := check_bind_eq_ok.mp rest
  cases rest
  obtain ⟨-, there, owned⟩ := getStickerWithSet_eq_ok found
  obtain ⟨named, inside, pos⟩ := makeStickerFromFile_eq_ok make
  have ranked := ranked_of_refresh consistent there rfl owned
  have listed : made ∈ _ := mem_filesOf.mpr ⟨(mem_createFile named).mpr (.inr rfl), inside⟩
  obtain ⟨i, -, at'⟩ := ranked.exists_pos listed
  rw [pos] at at'
  cases at'

theorem sound_step (sound : Sound env db) (inPlace : e.InPlace env db)
    (happens : step env db e = some db') : Sound env db' ∧ e.Does env db db' := by
  have ok := run_of_step happens
  obtain ⟨userId, cached, request⟩ := e
  cases request with
  | create r => exact ⟨sound_create sound ok, trivial⟩
  | add set sticker => exact ⟨sound_add sound ok, trivial⟩
  | replace sticker newSticker => exact absurd inPlace id
  | remove sticker => exact ⟨sound_remove sound ok, trivial⟩
  | changePosition sticker position => exact changePosition_in_place sound inPlace ok
  | change sticker emoji maskCoords => exact ⟨sound_change sound ok, trivial⟩
  | rename set title => exact ⟨sound_rename sound ok, trivial⟩

theorem inPlace_of_step (sound : Sound env db) (happens : step env db e = some db')
    (consistent : Consistent env db') (does : e.Does env db db') : e.InPlace env db := by
  have ok := run_of_step happens
  obtain ⟨userId, cached, request⟩ := e
  cases request with
  | replace sticker newSticker => exact not_replace ok consistent
  | changePosition sticker position => exact not_changePosition sound ok consistent does
  | _ => trivial

/-- In a run of successful requests the sets stay consistent and the stickers come where they
should, exactly when no sticker is replaced and those that are to be moved are in place. -/
theorem sets_consistent_iff {es : List Event} (sound : Sound env db)
    (run : runFrom (step env) db es = some db') :
    (HoldsAlong (step env) (Consistent env) db es ∧ EachStep (step env) (Event.Does env) db es) ↔
      StepsMeet (step env) (Event.InPlace env) db es := by
  have keep : ∀ m e t, Sound env m → Event.InPlace env m e → step env m e = some t → Sound env t :=
    fun _ _ _ sound inPlace happens => (sound_step sound inPlace happens).1
  have exact' : EachStep (step env) (fun m e t => Consistent env t ∧ Event.Does env m e t) db es ↔
      StepsMeet (step env) (Event.InPlace env) db es := by
    refine eachStep_iff_stepsMeet keep ?_ ?_ sound run
    · intro m e t sound inPlace happens
      obtain ⟨after, does⟩ := sound_step sound inPlace happens
      exact ⟨after.consistent, does⟩
    · intro m e t sound bad happens done
      exact bad (inPlace_of_step sound happens done.1 done.2)
  constructor
  · rintro ⟨along, each⟩
    refine exact'.mp fun pre e m t shorter ran happens => ⟨?_, each pre e m t shorter ran happens⟩
    exact along (pre ++ [e]) t shorter (runFrom_concat.mpr ⟨m, ran, happens⟩)
  · intro meets
    have each := exact'.mpr meets
    exact ⟨holdsAlong_of_stepsMeet (fun _ sound => sound.consistent) keep sound meets,
      fun pre e m t shorter ran happens => (each pre e m t shorter ran happens).2⟩

end Requests

instance decidableInPlace (env : Env) (db : Db) : ∀ e : Event, Decidable (e.InPlace env db)
  | ⟨userId, _, .changePosition sticker position⟩ =>
    match found : db.getStickerWithSet env userId sticker with
    | .error _ => .isTrue fun file set there => by
      rw [found] at there
      cases there
    | .ok (file, set) =>
      decidable_of_iff
        (file.stickerPos = some (clampTo (db.filesOf set.id).length position)) (by
          constructor
          · intro pos file' set' there
            cases found.symm.trans there
            exact pos
          · intro all
            exact all file set found)
  | ⟨_, _, .replace _ _⟩ => inferInstanceAs (Decidable False)
  | ⟨_, _, .create _⟩ => inferInstanceAs (Decidable True)
  | ⟨_, _, .add _ _⟩ => inferInstanceAs (Decidable True)
  | ⟨_, _, .remove _⟩ => inferInstanceAs (Decidable True)
  | ⟨_, _, .change _ _ _⟩ => inferInstanceAs (Decidable True)
  | ⟨_, _, .rename _ _⟩ => inferInstanceAs (Decidable True)

/-- Everybody holds every file, and every file is a good one. -/
private def goodFiles : Env where
  signed := fun _ _ => true
  constant := fun _ => false
  hasKeys := fun _ _ => true
  setSigned := fun _ _ _ => true
  media := fun _ _ => .ok ()
  resize := fun _ => .ok ()
  purelyEmoji := fun _ => true
  md5 := id

private def doc (id : Nat) : InputDocument := ⟨id, 0, []⟩

private def clip (id : Nat) : File := ⟨id, "video/webm", .document, none, none, none, false, none⟩

private def clips : Db where
  files := ⟨[clip 1, clip 2], by decide⟩
  sets := Table.empty
  thumbs := []
  installed := []

private theorem clips_sound : Sound goodFiles clips where
  consistent := fun set here => absurd here (Table.notMem_empty set)
  linked := by
    intro f here id inside
    rcases List.mem_cons.mp (Table.mem_def.mp here) with rfl | here
    · cases inside
    · obtain rfl := List.mem_singleton.mp here
      cases inside

private def asks (request : Request) : Event := ⟨7, ⟨false, true⟩, request⟩

private def making : List Event :=
  [asks (.create ⟨"clips", "clips", false, false, [⟨doc 1, "a", none⟩, ⟨doc 2, "b", none⟩], none⟩),
    asks (.changePosition (doc 4) 9), asks (.change (doc 3) (some "c") none),
    asks (.add (.id 1 0) ⟨doc 1, "d", none⟩), asks (.remove (doc 3)), asks (.rename (.id 1 0) "two")]

/-- A set is made, its last sticker is moved to the end, one is added and one removed. -/
theorem clips_consistent : ∃ db, runFrom (step goodFiles) clips making = some db ∧
    HoldsAlong (step goodFiles) (Consistent goodFiles) clips making ∧
    EachStep (step goodFiles) (Event.Does goodFiles) clips making := by
  have goes : (runFrom (step goodFiles) clips making).isSome = true := by decide +kernel
  obtain ⟨db, run⟩ := Option.isSome_iff_exists.mp goes
  exact ⟨db, run, (sets_consistent_iff clips_sound run).mpr (by decide +kernel)⟩

private def sticker (id : Nat) (pos : Int) : File :=
  ⟨id, "video/webm", .sticker, some 1, some pos, some "a", false, none⟩

private def pair : Db where
  files := ⟨[sticker 3 0, sticker 4 1], by decide⟩
  sets := ⟨[⟨1, "pair", some "pair", some 7, none,
    telegramHash id [.int 1, .str "pair", .int 3, .int 0, .str "a", .int 4, .int 1, .str "a"],
    .video, false, false, false, 2⟩], by decide⟩
  thumbs := []
  installed := []

private theorem pair_sound : Sound goodFiles pair where
  consistent := by
    intro set here _
    obtain rfl := List.mem_singleton.mp (Table.mem_def.mp here)
    exact ⟨List.Perm.of_eq rfl, rfl, by decide, by decide +kernel⟩
  linked := by
    intro f here id inside
    have named : f.stickersetId = some 1 := by
      rcases List.mem_cons.mp (Table.mem_def.mp here) with rfl | here
      · rfl
      · obtain rfl := List.mem_singleton.mp here
        rfl
    cases inside.symm.trans named
    exact ⟨_, Table.mem_def.mpr List.mem_cons_self, rfl⟩

/-- The first of two stickers is to become the second and stays the first. -/
theorem pair_not_moved : ¬ ∀ (env : Env) (db db' : Db) (es : List Event), Sound env db →
    runFrom (step env) db es = some db' →
    HoldsAlong (step env) (Consistent env) db es ∧ EachStep (step env) (Event.Does env) db es := by
  intro all
  have each := (all goodFiles pair pair [asks (.changePosition (doc 3) 1)] pair_sound rfl).2
  have moved := each [] _ pair pair (List.prefix_refl _) rfl rfl _ _ rfl
  exact absurd moved (by decide +kernel)

end Piltover.Stickers
