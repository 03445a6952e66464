/- source: piltover/db/models/message_content.py
   digest: Copies of contents made one by one and many at once, and when they are the same. -/

import Piltover.Contents.Related
import Piltover.Foundation.OrderedDict
import Mathlib.Logic.Embedding.Basic
import Mathlib.Tactic.Choose

set_option autoImplicit false

namespace Piltover.Forwarding.OneByOne

open Piltover.Contents
open Piltover.Foundation

/-! ### Lists of results -/

section Lists

variable {α β : Type} {f g : α → Except Failure β} {l : List α}

theorem mapM_congr (same : ∀ a ∈ l, f a = g a) : l.mapM f = l.mapM g := by
  induction l with
  | nil => rfl
  | cons a l ih =>
    rw [List.mapM_cons, List.mapM_cons, same a List.mem_cons_self,
      ih fun b later => same b (List.mem_cons_of_mem a later)]

theorem mapM_eq_error (unrefused : ∀ a ∈ l, Unrefused (f a)) {a : α} (listed : a ∈ l)
    (fails : f a = .error .other) : l.mapM f = .error .other := by
  induction l with
  | nil => cases listed
  | cons b l ih =>
    rw [List.mapM_cons]
    rcases (unrefused b List.mem_cons_self).cases with first | ⟨c, first⟩
    · rw [first]
      rfl
    · rw [first]
      rcases List.mem_cons.mp listed with rfl | later
      · rw [fails] at first
        cases first
      · have rest := ih (fun d listed => unrefused d (List.mem_cons_of_mem b listed)) later
        show (l.mapM f >>= _) = _
        rw [rest]
        rfl

/-- A list of results has at each place what the other computation gives there exactly if both end
well everywhere, with the same results, or the other one nowhere. -/
theorem mapM_pointwise_iff (ofF : ∀ a ∈ l, Unrefused (f a)) (ofG : ∀ a ∈ l, Unrefused (g a))
    (alike : ∀ a ∈ l, (∃ b, f a = .ok b) ↔ ∃ b, g a = .ok b) :
    (∀ i (inside : i < l.length), (l.mapM f).map (fun bs => bs[i]?) = (g l[i]).map some) ↔
      (∀ a ∈ l, ∃ b, f a = .ok b ∧ g a = .ok b) ∨ ∀ a ∈ l, ¬ ∃ b, g a = .ok b := by
  by_cases empty : l = []
  · subst empty
    exact iff_of_true (fun i inside => absurd inside (Nat.not_lt_zero i))
      (.inl fun a listed => by cases listed)
  obtain ⟨first, isFirst⟩ := List.exists_mem_of_ne_nil l empty
  by_cases all : ∀ a ∈ l, ∃ b, f a = .ok b
  · have : Nonempty β := ⟨(all first isFirst).choose⟩
    choose! value made using all
    rw [mapM_eq_ok_map made]
    constructor
    · intro same
      refine .inl fun a listed => ⟨value a, made a listed, ?_⟩
      obtain ⟨i, inside, rfl⟩ := List.mem_iff_getElem.mp listed
      have here := same i inside
      obtain ⟨b, other⟩ := (alike l[i] listed).mp ⟨_, made l[i] listed⟩
      rw [other] at here ⊢
      have equal : (l.map value)[i]? = some b := Except.ok.inj here
      rw [List.getElem?_map, List.getElem?_eq_getElem inside, Option.map_some] at equal
      exact congrArg Except.ok (Option.some.inj equal).symm
    · rintro (both | none) i inside
      · have listed := List.getElem_mem inside
        obtain ⟨b, here, there⟩ := both l[i] listed
        rw [made l[i] listed] at here
        rw [there]
        show Except.ok (l.map value)[i]? = Except.ok (some b)
        rw [List.getElem?_map, List.getElem?_eq_getElem inside, Option.map_some, Except.ok.inj here]
      · have listed := List.getElem_mem inside
        exact absurd ((alike l[i] listed).mp ⟨_, made l[i] listed⟩) (none l[i] listed)
  · obtain ⟨a, listed, fails⟩ : ∃ a ∈ l, ¬ ∃ b, f a = .ok b := by
      by_contra none
      exact all fun a listed => by_contra fun fails => none ⟨a, listed, fails⟩
    have raised : l.mapM f = .error .other := by
      refine mapM_eq_error ofF listed ?_
      rcases (ofF a listed).cases with raised | ended
      · exact raised
      · exact absurd ended fails
    rw [raised]
    constructor
    · intro same
      refine .inr fun b there ended => ?_
      obtain ⟨i, inside, rfl⟩ := List.mem_iff_getElem.mp there
      obtain ⟨c, other⟩ := ended
      have here := same i inside
      rw [other] at here
      cases here
    · rintro (both | none) i inside
      · obtain ⟨b, here, -⟩ := both a listed
        exact absurd ⟨b, here⟩ fails
      · have there := List.getElem_mem inside
        rcases (ofG l[i] there).cases with other | ended
        · rw [other]
          rfl
        · exact absurd ended (none l[i] there)

theorem filter_flatMap_rows {κ : Type} [DecidableEq κ] {rows : List (κ × List β)}
    (once : (rows.map Prod.fst).Nodup) {row : κ × List β} (listed : row ∈ rows) :
    ((rows.flatMap fun r => r.2.map fun b => (r.1, b)).filter fun pair => pair.1 = row.1).map
      Prod.snd = row.2 := by
  induction rows with
  | nil => cases listed
  | cons first rows ih =>
    rw [List.map_cons, List.nodup_cons] at once
    rw [List.flatMap_cons, List.filter_append, List.map_append]
    have own : ((first.2.map fun b => (first.1, b)).filter fun pair => pair.1 = first.1).map
        Prod.snd = first.2 := by
      rw [List.filter_eq_self.mpr fun pair made => ?_, List.map_map]
      · exact List.map_id _
      · obtain ⟨b, -, rfl⟩ := List.mem_map.mp made
        exact decide_eq_true rfl
    have apart : ∀ k, k ∉ rows.map Prod.fst →
        (rows.flatMap fun r => r.2.map fun b => (r.1, b)).filter (fun pair => pair.1 = k) =
          [] := by
      intro k absent
      refine List.filter_eq_nil_iff.mpr fun pair made same => absent ?_
      obtain ⟨r, there, inRow⟩ := List.mem_flatMap.mp made
      obtain ⟨b, -, rfl⟩ := List.mem_map.mp inRow
      exact List.mem_map.mpr ⟨r, there, of_decide_eq_true same⟩
    rcases List.mem_cons.mp listed with rfl | later
    · rw [own, apart _ once.1, List.map_nil, List.append_nil]
    · have other : row.1 ≠ first.1 := fun same =>
        once.1 (List.mem_map.mpr ⟨row, later, same⟩)
      have none : (first.2.map fun b => (first.1, b)).filter (fun pair => pair.1 = row.1) =
          [] := by
        refine List.filter_eq_nil_iff.mpr fun pair made same => other ?_
        obtain ⟨b, -, rfl⟩ := List.mem_map.mp made
        exact (of_decide_eq_true same).symm
      rw [none, List.map_nil, List.nil_append]
      exact ih once.2 later

end Lists

/-! ### Copies -/

/-- What is copied, with what is given for the copy. -/
structure Item where
  content : MessageContent
  fwdHeader : Option MessageFwdHeader
  postInfo : Option Nat
  mediaGroupId : Option Nat
  deriving DecidableEq, Repr

/-- The users, chats and channels that exist, and the identifier of the next content. -/
structure Db where
  existing : List Named
  nextContent : Nat

/-- Rows of `MessageRelated`: the content and what it is related to. -/
abbrev RelatedRows := List (Nat × Named)

namespace Db

variable (db : Db)

def filterExistingRelated (names : List Named) : List Named :=
  names.dedup.filter db.existing.contains

def relatedRows (contentId : Nat) (names : List Named) : RelatedRows :=
  (db.filterExistingRelated names).map fun name => (contentId, name)

/-- `clone_forward`: the copy, and the rows of `_create_related`. -/
def cloneForward (relatedPeer : Peer) (args : CloneForward) (item : Item) :
    Except Failure (MessageContent × RelatedRows) := do
  let copy ← args.clone db.nextContent item.content item.fwdHeader item.postInfo item.mediaGroupId
  let names ← copy.fillRelated relatedPeer
  .ok (copy, db.relatedRows copy.id names)

end Db

/-- A content of `clone_forward_bulk` before it is stored, which has no identifier yet; columns that
are not nullable refuse `None`. -/
def newContent (args : CloneForward) (item : Item) : Except Failure MessageContent := do
  let content := item.content
  let newAuthor :=
    if args.newAuthor.isNone && content.author.isSome then content.author else args.newAuthor
  let newChannelAuthorId :=
    if args.newChannelAuthorId.isNone && content.sendAsChannelId.isSome then
      content.sendAsChannelId
    else args.newChannelAuthorId
  let anonymous :=
    if args.anonymous.isNone then if args.dropAuthor then none else some content.anonymous
    else args.anonymous
  let channelPost :=
    if args.channelPost.isNone then if args.dropAuthor then none else some content.channelPost
    else args.channelPost
  let postInfo :=
    if item.postInfo.isNone then if args.dropAuthor then none else content.postInfo
    else item.postInfo
  let postAuthor :=
    if args.postAuthor.isNone then if args.dropAuthor then none else content.postAuthor
    else args.postAuthor
  let anonymous ← orRaise anonymous .other
  let channelPost ← orRaise channelPost .other
  .ok {
    id := 0
    message := if content.media.isNone || !args.dropCaptions then content.message else none
    entities := if content.media.isNone || !args.dropCaptions then content.entities else []
    date := if !args.isForward then content.date else args.now
    editDate := if !args.isForward then content.editDate else none
    type := content.type
    author := newAuthor
    media := content.media
    fwdHeader := item.fwdHeader
    mediaGroupId := item.mediaGroupId
    channelPost := channelPost
    postAuthor := postAuthor
    postInfo := postInfo
    anonymous := anonymous
    noForwards := args.noForwards
    viaBot := content.viaBot
    sendAsChannelId := newChannelAuthorId
    canSeeReactionsList := args.canSeeReactionsList }

namespace Db

variable (db : Db) (uuid : Nat ↪ Nat) (relatedPeer : Peer) (args : CloneForward)

/-- What `clone_forward_bulk` does with a content that is stored: it gets its identifier, and its
rows of `MessageRelated`. -/
def related (msgIdByRandomId : OrderedDict Nat Nat) (content : MessageContent)
    (internalRandomId : Nat) : Except Failure (MessageContent × RelatedRows) := do
  let id ← orRaise (msgIdByRandomId.lookup internalRandomId) .other
  let names ← MessageContent.fillRelated { content with id := id } relatedPeer
  .ok ({ content with id := id }, db.relatedRows id names)

/-- `clone_forward_bulk`; `uuid` has the results of `uuid4`. The contents are stored with
consecutive identifiers, and found again by their random ones. -/
def cloneForwardBulk (items : List Item) : Except Failure (List MessageContent × RelatedRows) := do
  let newContents ← items.mapM (newContent args)
  let internalRandomIds := (List.range newContents.length).map uuid
  let msgIdByRandomId := OrderedDict.ofPairs (internalRandomIds.zipIdx db.nextContent)
  let made ← (newContents.zip internalRandomIds).mapM fun pair =>
    db.related relatedPeer msgIdByRandomId pair.1 pair.2
  .ok (made.map Prod.fst, made.flatMap Prod.snd)

end Db

def shown (rows : RelatedRows) (copy : MessageContent) : MessageContent × List Named :=
  ({ copy with id := 0 }, (rows.filter fun row => row.1 = copy.id).map Prod.snd)

/-- Each copy made among many has the fields and the related rows of the copy made alone. -/
def ClonesAlike (db : Db) (uuid : Nat ↪ Nat) (relatedPeer : Peer) (args : CloneForward)
    (items : List Item) : Prop :=
  ∀ i (inside : i < items.length),
    (db.cloneForwardBulk uuid relatedPeer args items).map
        (fun made => made.1[i]?.map (shown made.2)) =
      (db.cloneForward relatedPeer args items[i]).map fun made => some (shown made.2 made.1)

/-- Whoever drops the authors says whether the copies are posts and whether they are anonymous. -/
def Complete (args : CloneForward) : Prop :=
  args.dropAuthor = true → args.anonymous.isSome = true ∧ args.channelPost.isSome = true

section Copies

variable {db : Db} {uuid : Nat ↪ Nat} {relatedPeer : Peer} {args : CloneForward} {item : Item}
  {items : List Item}

theorem or_eq {α : Type} (given own : Option α) :
    (if given.isNone && own.isSome then own else given) = given.or own := by
  cases given <;> cases own <;> rfl

theorem inherited_eq {α : Type} (given own : Option α) :
    (if given.isNone then if args.dropAuthor then none else own else given) =
      args.inherited given own := by
  cases given <;> rfl

theorem ite_not_eq {α : Type} (check : Bool) (a b : α) :
    (if !check then a else b) = if check then b else a := by
  cases check <;> rfl

theorem newContent_eq : newContent args item = (do
    let anonymous ← orRaise (args.inherited args.anonymous (some item.content.anonymous)) .other
    let channelPost ← orRaise (args.inherited args.channelPost (some item.content.channelPost))
      .other
    .ok (args.copyOf 0 item.content item.fwdHeader item.postInfo item.mediaGroupId anonymous
      channelPost)) := by
  unfold newContent
  simp only [or_eq, inherited_eq, ite_not_eq]
  rfl

theorem clone_eq (id : Nat) :
    args.clone id item.content item.fwdHeader item.postInfo item.mediaGroupId =
      (newContent args item).map fun copy => { copy with id := id } := by
  rw [newContent_eq, CloneForward.clone]
  cases args.inherited args.anonymous (some item.content.anonymous) with
  | none => rfl
  | some anonymous =>
    cases args.inherited args.channelPost (some item.content.channelPost) <;> rfl

theorem inherited_isSome_iff {α : Type} {given : Option α} {own : α} :
    (args.inherited given (some own)).isSome = true ↔
      (args.dropAuthor = true → given.isSome = true) := by
  cases given <;> cases dropped : args.dropAuthor <;> simp [CloneForward.inherited, dropped]

theorem exists_newContent (complete : Complete args) (item : Item) :
    ∃ copy, newContent args item = .ok copy ∧ copy.id = 0 ∧ copy.type = item.content.type ∧
      copy.extraInfo = none := by
  have anonymousGiven : (args.inherited args.anonymous (some item.content.anonymous)).isSome =
      true := inherited_isSome_iff.mpr fun dropped => (complete dropped).1
  have postGiven : (args.inherited args.channelPost (some item.content.channelPost)).isSome =
      true := inherited_isSome_iff.mpr fun dropped => (complete dropped).2
  obtain ⟨anonymous, isAnonymous⟩ := Option.isSome_iff_exists.mp anonymousGiven
  obtain ⟨channelPost, isPost⟩ := Option.isSome_iff_exists.mp postGiven
  rw [newContent_eq, isAnonymous, isPost]
  exact ⟨_, rfl, rfl, rfl, rfl⟩

theorem newContent_eq_error (incomplete : ¬ Complete args) (item : Item) :
    newContent args item = .error .other := by
  rw [newContent_eq]
  cases anonymous : args.inherited args.anonymous (some item.content.anonymous) with
  | none => rfl
  | some isAnonymous =>
    cases post : args.inherited args.channelPost (some item.content.channelPost) with
    | none => rfl
    | some isPost =>
      have first := inherited_isSome_iff.mp (Option.isSome_of_eq_some anonymous)
      have second := inherited_isSome_iff.mp (Option.isSome_of_eq_some post)
      exact absurd (fun dropped => ⟨first dropped, second dropped⟩) incomplete

theorem fillRelated_of_no_action (relatedPeer : Peer) {copy : MessageContent}
    (noAction : copy.extraInfo = none) :
    if readsAction copy.type = true then copy.fillRelated relatedPeer = .error .other
    else ∃ names, copy.fillRelated relatedPeer = .ok names := by
  rw [MessageContent.fillRelated, MessageContent.fillAction, noAction]
  cases copy.type <;> first | exact rfl | exact ⟨_, rfl⟩

/-- A copy of an item that has no identifier, with what there is of what it is related to. -/
def alone (db : Db) (relatedPeer : Peer) (args : CloneForward) (item : Item) :
    Except Failure (MessageContent × List Named) := do
  let copy ← newContent args item
  let names ← copy.fillRelated relatedPeer
  .ok (copy, db.filterExistingRelated names)

/-- What an item needs to be copied. -/
def Copied (args : CloneForward) (item : Item) : Prop :=
  Complete args ∧ readsAction item.content.type = false

theorem alone_spec (db : Db) (relatedPeer : Peer) (args : CloneForward) (item : Item) :
    (Copied args item ∧ ∃ copy names, newContent args item = .ok copy ∧ copy.id = 0 ∧
      copy.fillRelated relatedPeer = .ok names ∧
        alone db relatedPeer args item = .ok (copy, db.filterExistingRelated names)) ∨
    (¬ Copied args item ∧ alone db relatedPeer args item = .error .other) := by
  by_cases complete : Complete args
  · obtain ⟨copy, made, noId, sameType, noAction⟩ := exists_newContent complete item
    have filled := fillRelated_of_no_action relatedPeer noAction
    rw [sameType] at filled
    by_cases reads : readsAction item.content.type = true
    · rw [if_pos reads] at filled
      refine .inr ⟨fun copied => Bool.false_ne_true (copied.2.symm.trans reads), ?_⟩
      rw [alone, made]
      show (copy.fillRelated relatedPeer >>= _) = _
      rw [filled]
      rfl
    · rw [if_neg reads] at filled
      obtain ⟨names, filled⟩ := filled
      refine .inl ⟨⟨complete, Bool.eq_false_iff.mpr reads⟩, copy, names, made, noId, filled, ?_⟩
      rw [alone, made]
      show (copy.fillRelated relatedPeer >>= _) = _
      rw [filled]
      rfl
  · refine .inr ⟨fun copied => complete copied.1, ?_⟩
    rw [alone, newContent_eq_error complete]
    rfl

theorem unrefused_alone : Unrefused (alone db relatedPeer args item) := by
  rcases alone_spec db relatedPeer args item with ⟨-, copy, names, -, -, -, made⟩ | ⟨-, raised⟩
  · rw [made]
    exact unrefused_ok _
  · intro code message refused
    rw [raised] at refused
    cases refused

theorem exists_alone :
    (∃ made, alone db relatedPeer args item = .ok made) ↔ Copied args item := by
  rcases alone_spec db relatedPeer args item with
    ⟨copied, copy, names, -, -, -, made⟩ | ⟨not, raised⟩
  · exact iff_of_true ⟨_, made⟩ copied
  · refine iff_of_false (fun ⟨made, done⟩ => ?_) not
    rw [raised] at done
    cases done

theorem shown_relatedRows (copy : MessageContent) (names : List Named) :
    shown (db.relatedRows copy.id names) copy =
      ({ copy with id := 0 }, db.filterExistingRelated names) := by
  have own : (db.relatedRows copy.id names).filter (fun row => row.1 = copy.id) =
      db.relatedRows copy.id names := by
    refine List.filter_eq_self.mpr fun row listed => ?_
    obtain ⟨name, -, rfl⟩ := List.mem_map.mp listed
    exact decide_eq_true rfl
  rw [shown, own, Db.relatedRows, List.map_map]
  exact congrArg _ (List.map_id _)

theorem cloneForward_shown :
    (db.cloneForward relatedPeer args item).map (fun made => shown made.2 made.1) =
      alone db relatedPeer args item := by
  rw [Db.cloneForward, clone_eq]
  by_cases complete : Complete args
  · obtain ⟨copy, made, noId, -⟩ := exists_newContent complete item
    rw [alone, made]
    show (MessageContent.fillRelated { copy with id := db.nextContent } relatedPeer >>= _).map _ =
      (copy.fillRelated relatedPeer >>= _)
    have same : MessageContent.fillRelated { copy with id := db.nextContent } relatedPeer =
        copy.fillRelated relatedPeer := rfl
    rw [same]
    cases copy.fillRelated relatedPeer with
    | error failure => rfl
    | ok names =>
      show Except.ok (shown (db.relatedRows db.nextContent names)
        { copy with id := db.nextContent }) = _
      rw [shown_relatedRows { copy with id := db.nextContent } names, ← noId]
      rfl
  · rw [alone, newContent_eq_error complete]
    rfl

theorem lookup_uuid {n i : Nat} (inside : i < n) :
    (OrderedDict.ofPairs (((List.range n).map uuid).zipIdx db.nextContent)).lookup (uuid i) =
      some (db.nextContent + i) := by
  have once : ((((List.range n).map uuid).zipIdx db.nextContent).map Prod.fst).Nodup := by
    rw [List.zipIdx_map_fst]
    exact List.nodup_range.map uuid.injective
  refine (OrderedDict.lookup_ofPairs_iff once).mpr ?_
  refine List.mk_mem_zipIdx_iff_le_and_getElem?_sub.mpr ⟨Nat.le_add_right _ _, ?_⟩
  rw [Nat.add_sub_cancel_left, List.getElem?_map, List.getElem?_range inside, Option.map_some]

theorem zip_uuid (contents : List MessageContent) :
    contents.zip ((List.range contents.length).map uuid) =
      contents.zipIdx.map fun pair => (pair.1, uuid pair.2) := by
  rw [List.zipIdx_eq_zip_range', ← List.range_eq_range', List.zip_map_right]
  rfl

theorem related_all {contents : List MessageContent} {names : MessageContent → List Named}
    (filled : ∀ copy ∈ contents, copy.fillRelated relatedPeer = .ok (names copy)) :
    (contents.zip ((List.range contents.length).map uuid)).mapM (fun pair =>
        db.related relatedPeer (OrderedDict.ofPairs
          (((List.range contents.length).map uuid).zipIdx db.nextContent)) pair.1 pair.2) =
      .ok (contents.zipIdx.map fun pair => ({ pair.1 with id := db.nextContent + pair.2 },
        db.relatedRows (db.nextContent + pair.2) (names pair.1))) := by
  rw [zip_uuid, List.mapM_map]
  refine mapM_eq_ok_map fun pair listed => ?_
  obtain ⟨copy, i⟩ := pair
  obtain ⟨-, below, -⟩ := List.mem_zipIdx listed
  have inside : i < contents.length := by omega
  have same : MessageContent.fillRelated { copy with id := db.nextContent + i } relatedPeer =
      .ok (names copy) := filled copy (List.fst_mem_of_mem_zipIdx listed)
  show db.related relatedPeer _ copy (uuid i) = _
  rw [Db.related, lookup_uuid inside]
  show (MessageContent.fillRelated { copy with id := db.nextContent + i } relatedPeer >>= _) = _
  rw [same]
  rfl

theorem shown_all {contents : List MessageContent} (noIds : ∀ copy ∈ contents, copy.id = 0)
    (names : MessageContent → List Named) :
    let made : List (MessageContent × RelatedRows) := contents.zipIdx.map fun pair =>
      ({ pair.1 with id := db.nextContent + pair.2 },
        db.relatedRows (db.nextContent + pair.2) (names pair.1))
    (made.map Prod.fst).map (shown (made.flatMap Prod.snd)) =
      contents.map fun copy => (copy, db.filterExistingRelated (names copy)) := by
  intro made
  let rows : List (Nat × List Named) := contents.zipIdx.map fun pair =>
    (db.nextContent + pair.2, db.filterExistingRelated (names pair.1))
  have flat : made.flatMap Prod.snd =
      rows.flatMap fun row => row.2.map fun name => (row.1, name) := by
    rw [List.flatMap_map, List.flatMap_map]
    rfl
  have once : (rows.map Prod.fst).Nodup := by
    rw [List.map_map]
    refine List.Nodup.map_on ?_ (List.Nodup.of_map Prod.snd ?_)
    · rintro ⟨copy, i⟩ here ⟨copy', j⟩ there same
      have places : i = j := Nat.add_left_cancel same
      subst places
      obtain ⟨-, -, first⟩ := List.mem_zipIdx here
      obtain ⟨-, -, second⟩ := List.mem_zipIdx there
      rw [first, second]
    · rw [List.zipIdx_map_snd]
      exact List.nodup_range'
  rw [List.map_map, List.map_map]
  calc contents.zipIdx.map _
      = contents.zipIdx.map ((fun copy => (copy, db.filterExistingRelated (names copy))) ∘
          Prod.fst) := ?_
    _ = (contents.zipIdx.map Prod.fst).map fun copy =>
          (copy, db.filterExistingRelated (names copy)) := (List.map_map ..).symm
    _ = _ := by rw [List.zipIdx_map_fst]
  refine List.map_congr_left fun pair listed => ?_
  obtain ⟨copy, i⟩ := pair
  have own := filter_flatMap_rows once (List.mem_map_of_mem
    (f := fun pair : MessageContent × Nat =>
      (db.nextContent + pair.2, db.filterExistingRelated (names pair.1))) listed)
  have noId := noIds copy (List.fst_mem_of_mem_zipIdx listed)
  show shown (made.flatMap Prod.snd) { copy with id := db.nextContent + i } = _
  rw [flat, shown]
  refine Prod.ext ?_ own
  show { copy with id := 0 } = copy
  rw [← noId]

theorem unrefused_fillRelated (content : MessageContent) :
    Unrefused (content.fillRelated relatedPeer) := by
  refine unrefused_map fun code message refused => ?_
  unfold MessageContent.fillAction at refused
  split at refused <;> cases refused

theorem related_raises {contents : List MessageContent} {copy : MessageContent}
    (listed : copy ∈ contents) (noAction : copy.extraInfo = none)
    (reads : readsAction copy.type = true) :
    (contents.zip ((List.range contents.length).map uuid)).mapM (fun pair =>
        db.related relatedPeer (OrderedDict.ofPairs
          (((List.range contents.length).map uuid).zipIdx db.nextContent)) pair.1 pair.2) =
      .error .other := by
  obtain ⟨i, inside, rfl⟩ := List.mem_iff_getElem.mp listed
  have filled := fillRelated_of_no_action relatedPeer noAction
  rw [if_pos reads] at filled
  have here : (contents[i], uuid i) ∈ contents.zip ((List.range contents.length).map uuid) := by
    rw [zip_uuid]
    exact List.mem_map.mpr ⟨(contents[i], i), List.mk_mem_zipIdx_iff_getElem?.mpr
      (List.getElem?_eq_getElem inside), rfl⟩
  refine mapM_eq_error (fun pair _ => ?_) here ?_
  · rw [Db.related, unrefused_bind_iff]
    refine ⟨unrefused_orRaise _, fun id _ => ?_⟩
    rw [unrefused_bind_iff]
    exact ⟨unrefused_fillRelated _, fun names _ => unrefused_ok _⟩
  · have same : MessageContent.fillRelated { contents[i] with id := db.nextContent + i }
        relatedPeer = .error .other := filled
    dsimp only
    rw [Db.related, lookup_uuid inside]
    show (MessageContent.fillRelated { contents[i] with id := db.nextContent + i }
      relatedPeer >>= _) = _
    rw [same]
    rfl

theorem cloneForwardBulk_shown (uuid : Nat ↪ Nat) :
    (db.cloneForwardBulk uuid relatedPeer args items).map
        (fun made => made.1.map (shown made.2)) = items.mapM (alone db relatedPeer args) := by
  by_cases empty : items = []
  · subst empty
    rfl
  obtain ⟨first, isFirst⟩ := List.exists_mem_of_ne_nil items empty
  by_cases complete : Complete args
  · choose copy made noId sameType noAction using exists_newContent complete
    have contents : items.mapM (newContent args) = .ok (items.map copy) :=
      mapM_eq_ok_map fun item _ => made item
    rw [Db.cloneForwardBulk, contents]
    by_cases all : ∀ item ∈ items, Copied args item
    · have filled : ∀ item ∈ items, ∃ names, (copy item).fillRelated relatedPeer = .ok names := by
        intro item listed
        have free := fillRelated_of_no_action relatedPeer (noAction item)
        rwa [sameType, (all item listed).2, if_neg Bool.false_ne_true] at free
      let names (content : MessageContent) : List Named :=
        ((content.fillRelated relatedPeer).toOption).getD []
      have named : ∀ content ∈ items.map copy,
          content.fillRelated relatedPeer = .ok (names content) := by
        intro content listed
        obtain ⟨item, inItems, rfl⟩ := List.mem_map.mp listed
        obtain ⟨found, fills⟩ := filled item inItems
        show _ = Except.ok (((copy item).fillRelated relatedPeer).toOption.getD [])
        rw [fills]
        rfl
      have right : items.mapM (alone db relatedPeer args) =
          .ok (items.map fun item =>
            (copy item, db.filterExistingRelated (names (copy item)))) := by
        refine mapM_eq_ok_map fun item listed => ?_
        rw [alone, made]
        show ((copy item).fillRelated relatedPeer >>= _) = _
        rw [named (copy item) (List.mem_map_of_mem listed)]
        rfl
      rw [right]
      show ((List.mapM _ _ : Except Failure _) >>= _).map _ = _
      rw [related_all named]
      refine congrArg Except.ok ((shown_all ?_ names).trans ?_)
      · intro content listed
        obtain ⟨item, -, rfl⟩ := List.mem_map.mp listed
        exact noId item
      · rw [List.map_map]
        rfl
    · obtain ⟨item, listed, refused⟩ : ∃ item ∈ items, ¬ Copied args item := by
        by_contra none
        exact all fun item listed => by_contra fun refused => none ⟨item, listed, refused⟩
      have reads : readsAction (copy item).type = true := by
        rw [sameType]
        exact Bool.of_not_eq_false fun isFalse => refused ⟨complete, isFalse⟩
      have alsoRaised : items.mapM (alone db relatedPeer args) = .error .other := by
        refine mapM_eq_error (fun _ _ => unrefused_alone) listed ?_
        rcases alone_spec db relatedPeer args item with ⟨copied, -⟩ | ⟨-, raised⟩
        · exact absurd copied refused
        · exact raised
      rw [alsoRaised]
      show ((List.mapM _ _ : Except Failure _) >>= _).map _ = _
      rw [related_raises (List.mem_map_of_mem listed) (noAction item) reads]
      rfl
  · have contents : items.mapM (newContent args) = .error .other := by
      refine mapM_eq_error (fun item _ code message refused => ?_) isFirst
        (newContent_eq_error complete first)
      rw [newContent_eq_error complete] at refused
      cases refused
    have alsoRaised : items.mapM (alone db relatedPeer args) = .error .other := by
      refine mapM_eq_error (fun _ _ => unrefused_alone) isFirst ?_
      rw [alone, newContent_eq_error complete]
      rfl
    rw [Db.cloneForwardBulk, contents, alsoRaised]
    rfl

theorem clonesAlike_iff : ClonesAlike db uuid relatedPeer args items ↔
    (∀ item ∈ items, Copied args item) ∨ ∀ item ∈ items, ¬ Copied args item := by
  have pointwise := mapM_pointwise_iff (f := alone db relatedPeer args)
    (g := alone db relatedPeer args) (l := items) (fun _ _ => unrefused_alone)
    (fun _ _ => unrefused_alone) (fun _ _ => Iff.rfl)
  have places : ClonesAlike db uuid relatedPeer args items ↔
      ∀ i (inside : i < items.length), (items.mapM (alone db relatedPeer args)).map
        (fun made => made[i]?) = (alone db relatedPeer args items[i]).map some := by
    refine forall₂_congr fun i inside => ?_
    have left : (db.cloneForwardBulk uuid relatedPeer args items).map
        (fun made => made.1[i]?.map (shown made.2)) =
          (items.mapM (alone db relatedPeer args)).map fun made => made[i]? := by
      rw [← cloneForwardBulk_shown uuid]
      cases db.cloneForwardBulk uuid relatedPeer args items with
      | error failure => rfl
      | ok made =>
        show Except.ok _ = Except.ok (made.1.map (shown made.2))[i]?
        rw [List.getElem?_map]
    have right : (db.cloneForward relatedPeer args items[i]).map
        (fun made => some (shown made.2 made.1)) =
          (alone db relatedPeer args items[i]).map some := by
      rw [← cloneForward_shown]
      cases db.cloneForward relatedPeer args items[i] <;> rfl
    rw [left, right]
  rw [places, pointwise]
  refine or_congr (forall₂_congr fun item _ => ?_) (forall₂_congr fun item _ => ?_)
  · exact ⟨fun ⟨made, done, _⟩ => exists_alone.mp ⟨made, done⟩, fun copied =>
      let ⟨made, done⟩ := exists_alone.mpr copied
      ⟨made, done, done⟩⟩
  · exact not_congr exists_alone

end Copies

end Piltover.Forwarding.OneByOne
