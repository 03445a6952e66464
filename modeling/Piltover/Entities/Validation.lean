/- source: piltover/app/utils/utils.py
   digest: The entities of a message validated; what the remembered places of two checks do. -/

import Piltover.Failure
import Piltover.Foundation.Matching
import Piltover.Foundation.Slices
import Piltover.Foundation.Sweeps
import Piltover.Foundation.Table

set_option autoImplicit false

namespace Piltover.Entities

open Piltover.Foundation Piltover.Foundation.Slices Piltover.Foundation.Sweeps

inductive InputUser
  | empty
  | self
  | user (userId accessHash : Int)
  | fromMessage (userId : Int)
  deriving DecidableEq, Repr

inductive EntityKind
  | unknown | mention | hashtag | botCommand | url | email | bold | italic | code
  | pre (language : String)
  | textUrl (url : String)
  | mentionName (userId : Int)
  | inputMentionName (userId : InputUser)
  | phone | cashtag | underline | strike | bankCard | spoiler
  | customEmoji (documentId : Int)
  | blockquote (collapsed : Bool)
  deriving DecidableEq, Repr

structure MessageEntity where
  kind : EntityKind
  offset : Int
  length : Int
  deriving DecidableEq, Repr

/-! ### What is stored -/

/-- A row of `Peer`. -/
structure Peer where
  ownerId : Int
  userId : Option Int
  deriving DecidableEq, Repr

inductive FileType
  | documentEmoji
  | other
  deriving DecidableEq, Repr

/-- A row of `File`. -/
structure File where
  id : Int
  type : FileType
  stickersetId : Option Int
  stickerAlt : Option (List Char)
  deriving DecidableEq, Repr

/-- What the validation reads: the database, who sends, and how an access hash is checked, which
gets the user, the session, the target and the hash. -/
structure Context where
  peers : List Peer
  files : Table File.id
  userId : Int
  authId : Int
  checkAccessHash : Int → Int → Int → Int → Bool

/-! ### One entity -/

def boundsInvalid : Failure := .rpc 400 "ENTITY_BOUNDS_INVALID"

def mentionUserInvalid : Failure := .rpc 400 "ENTITY_MENTION_USER_INVALID"

def entitiesTooLong : Failure := .rpc 400 "ENTITIES_TOO_LONG"

/-- `[a-z0-9_]` -/
def isUsernameChar (c : Char) : Bool :=
  ('a' ≤ c && c ≤ 'z') || ('0' ≤ c && c ≤ '9') || c = '_'

/-- `USERNAME_REGEX.match`; `$` is also before a newline that ends the text. -/
def matchesUsername (name : List Char) : Bool :=
  let word := if name.getLast? = some '\n' then name.dropLast else name
  1 ≤ word.length && word.length ≤ 32 && word.all isUsernameChar

/-- `u16text[u16off]`, the low byte of a code unit. -/
def lowByte (u16text : List Nat) (offset : Int) : Except Failure Nat :=
  (orRaise u16text[offset.toNat]? .other).map (· % 0x100)

def bytes (units : List Nat) : List Nat := units.flatMap fun u => [u % 0x100, u / 0x100]

def checkFirst (u16text : List Nat) (entity : MessageEntity) (c : Char) : Except Failure Unit := do
  let first ← lowByte u16text entity.offset
  require (first = c.toNat) boundsInvalid

def VALID_ENTITIES : EntityKind → Bool
  | .bold | .italic | .code | .pre _ | .textUrl _ | .underline | .strike | .bankCard | .spoiler
  | .blockquote _ => true
  | _ => false

/-- The kinds that are not passed over. -/
def accepted : EntityKind → Bool
  | .mention | .hashtag | .url | .email | .phone | .cashtag | .inputMentionName _
  | .customEmoji _ => true
  | kind => VALID_ENTITIES kind

def checkEntity (u16text : List Nat) (entity : MessageEntity) : Except Failure Unit := do
  require (0 ≤ entity.offset && entity.offset ≤ u16text.length &&
    entity.offset + entity.length ≤ u16text.length) boundsInvalid
  match entity.kind with
  | .mention => do
      checkFirst u16text entity '@'
      let inner := slice u16text (entity.offset + 1) (entity.offset + entity.length)
      let name ← orRaise (decode inner) .other
      require (matchesUsername name) mentionUserInvalid
  | .hashtag => checkFirst u16text entity '#'
  | .url =>
    require ((utf16 ['h', 't', 't', 'p']).isPrefixOf (u16text.drop entity.offset.toNat))
      boundsInvalid
  | .email =>
    let email := slice u16text (entity.offset + 1) (entity.offset + entity.length)
    require (Matching.cut (bytes (utf16 ['@'])) (bytes email)).isSome boundsInvalid
  | .phone => checkFirst u16text entity '+'
  | .cashtag => checkFirst u16text entity '$'
  | _ => .ok ()

/-! ### The loops -/

/-- What the first loop collects; the second parts are places in the result. -/
structure Collected where
  fetchUsers : List (InputUser × Nat) := []
  checkEmojis : List (Int × Nat) := []
  result : List MessageEntity := []
  deriving DecidableEq, Repr

/-- A turn of the first loop. -/
def collect (u16text : List Nat) (s : Collected) (entity : MessageEntity) :
    Except Failure Collected := do
  checkEntity u16text entity
  match entity.kind with
  | .inputMentionName user =>
    .ok { s with
      fetchUsers := s.fetchUsers ++ [(user, s.result.length)]
      result := s.result ++ [{ entity with kind := .mentionName 0 }] }
  | .customEmoji documentId =>
    .ok { s with
      checkEmojis := s.checkEmojis ++ [(documentId, s.result.length)]
      result := s.result ++ [entity] }
  | kind => .ok (if accepted kind then { s with result := s.result ++ [entity] } else s)

def gotUsers (ctx : Context) (fetchUsers : List (InputUser × Nat)) : List Int :=
  let usersIds := fetchUsers.filterMap fun (inputUser, _) =>
    match inputUser with
    | .user userId accessHash =>
      if ctx.checkAccessHash ctx.userId ctx.authId userId accessHash then some userId else none
    | _ => none
  ctx.userId :: if usersIds = [] then [] else
    (ctx.peers.filter fun peer => peer.ownerId = ctx.userId &&
      peer.userId.any usersIds.contains).filterMap Peer.userId

def judgeUser (ctx : Context) (got : List Int) (inputUser : InputUser) (entity : MessageEntity) :
    Except Failure (Option MessageEntity) :=
  match inputUser with
  | .self => .ok (some { entity with kind := .mentionName ctx.userId })
  | .user userId _ | .fromMessage userId =>
    .ok (if got.contains userId then some { entity with kind := .mentionName userId } else none)
  | .empty => .ok (some entity)

/-- `files.get(check_id)`. -/
def emojiFile (ctx : Context) (documentId : Int) : Option File :=
  (ctx.files.get documentId).filter fun file => file.type = .documentEmoji

/-- What becomes of what is at the place of a custom emoji. -/
def judgeEmoji (ctx : Context) (u16text : List Nat) (documentId : Int) (entity : MessageEntity) :
    Except Failure (Option MessageEntity) :=
  match emojiFile ctx documentId with
  | none => .ok none
  | some file =>
    if file.stickersetId = none then .ok none
    else do
      let covered ← orRaise
        (decode (slice u16text entity.offset (entity.offset + entity.length))) .other
      .ok (if file.stickerAlt = some covered then some entity else none)

/-- The loop over `fetch_users`. -/
def resolveUsers (ctx : Context) (s : Collected) : Except Failure (List MessageEntity) :=
  if s.fetchUsers = [] then .ok s.result
  else sweep .other (judgeUser ctx (gotUsers ctx s.fetchUsers)) s.fetchUsers s.result

def validateMessageEntities (ctx : Context) (text : List Char) (entities : List MessageEntity) :
    Except Failure (List MessageEntity) :=
  if entities = [] then .ok []
  else if 1024 < entities.length then .error entitiesTooLong
  else do
    let s ← entities.foldlM (collect (utf16 text)) {}
    let result ← resolveUsers ctx s
    if s.checkEmojis = [] then .ok result
    else sweep .other (judgeEmoji ctx (utf16 text)) s.checkEmojis result

/-! ### What is to be returned -/

def InputUser.target (userId : Int) : InputUser → Option Int
  | .empty => none
  | .self => some userId
  | .user target _ | .fromMessage target => some target

def accessible (ctx : Context) (entities : List MessageEntity) (target : Int) : Bool :=
  target = ctx.userId ||
    entities.any (fun entity =>
      match entity.kind with
      | .inputMentionName (.user userId accessHash) =>
        userId = target && ctx.checkAccessHash ctx.userId ctx.authId userId accessHash
      | _ => false) &&
    ctx.peers.any fun peer => peer.ownerId = ctx.userId && peer.userId = some target

/-- The document of a custom emoji is a known one, in a sticker set, and its alt text is what the
entity covers. -/
def emojiFits (ctx : Context) (text : List Char) (documentId : Int) (entity : MessageEntity) :
    Bool :=
  (emojiFile ctx documentId).any fun file => file.stickersetId.isSome &&
    file.stickerAlt.any fun alt =>
      slice (utf16 text) entity.offset (entity.offset + entity.length) = utf16 alt

/-- The entity is in bounds, has a length that is not negative and an accepted kind; the user of a
mention is accessible, and the document of a custom emoji fits. -/
def wanted (ctx : Context) (text : List Char) (entities : List MessageEntity)
    (entity : MessageEntity) : Bool :=
  0 ≤ entity.offset && 0 ≤ entity.length &&
    entity.offset + entity.length ≤ (utf16 text).length &&
    accepted entity.kind &&
    match entity.kind with
    | .inputMentionName user => (user.target ctx.userId).any (accessible ctx entities)
    | .customEmoji documentId => emojiFits ctx text documentId entity
    | _ => true

/-- The mention of a user has the user's identifier. -/
def resolved (ctx : Context) (entity : MessageEntity) : MessageEntity :=
  match entity.kind with
  | .inputMentionName user =>
    { entity with kind := .mentionName ((user.target ctx.userId).getD 0) }
  | _ => entity

def JudgedInPlace (ctx : Context) (text : List Char) (entities : List MessageEntity) : Prop :=
  ∀ s result, entities.foldlM (collect (utf16 text)) {} = .ok s → resolveUsers ctx s = .ok result →
    ∀ m ∈ s.checkEmojis, result[m.2]? = s.result[m.2]?

/-- An error for the client, or the wanted entities, none of them judged in the place of another. -/
def Right (ctx : Context) (text : List Char) (entities : List MessageEntity)
    (outcome : Except Failure (List MessageEntity)) : Prop :=
  (∃ code message, outcome = .error (.rpc code message)) ∨
    outcome = .ok ((entities.filter (wanted ctx text entities)).map (resolved ctx)) ∧
      JudgedInPlace ctx text entities

/-! ### When the outcome is right -/

/-- An entity fails its checks with an error for the client, and those before it pass theirs. -/
def Refused (text : List Char) (entities : List MessageEntity) : Prop :=
  ∃ front entity back code message, entities = front ++ entity :: back ∧
    (∀ e ∈ front, checkEntity (utf16 text) e = .ok ()) ∧
      checkEntity (utf16 text) entity = .error (.rpc code message)

def dropped (ctx : Context) (entities : List MessageEntity) (entity : MessageEntity) : Bool :=
  match entity.kind with
  | .inputMentionName user =>
    (user.target ctx.userId).any fun target => !accessible ctx entities target
  | _ => false

def emojiOf (entity : MessageEntity) : Option Int :=
  match entity.kind with
  | .customEmoji documentId => some documentId
  | _ => none

/-- The entity goes, as a mention or as a custom emoji. -/
def removed (ctx : Context) (text : List Char) (entities : List MessageEntity)
    (entity : MessageEntity) : Bool :=
  dropped ctx entities entity ||
    (emojiOf entity).any fun documentId => !emojiFits ctx text documentId entity

/-- All entities pass their checks; no mention that is dropped stands before a custom emoji; a
custom emoji whose document is known covers whole characters; and what has a negative length, or
mentions no user, goes for another reason. -/
structure Clean (ctx : Context) (text : List Char) (entities : List MessageEntity) : Prop where
  passes : ∀ e ∈ entities, checkEntity (utf16 text) e = .ok ()
  ordered : entities.Pairwise fun e f => dropped ctx entities e = true → emojiOf f = none
  readable : ∀ e ∈ entities, ∀ documentId, emojiOf e = some documentId →
    ∀ file, emojiFile ctx documentId = some file → file.stickersetId ≠ none →
      ∃ covered, slice (utf16 text) e.offset (e.offset + e.length) = utf16 covered
  welcome : ∀ e ∈ entities, accepted e.kind = true →
    e.length < 0 ∨ e.kind = .inputMentionName .empty → removed ctx text entities e = true

/-! ### The first loop -/

/-- How an entity is put in the result. -/
def dictOf (entity : MessageEntity) : MessageEntity :=
  match entity.kind with
  | .inputMentionName _ => { entity with kind := .mentionName 0 }
  | _ => entity

def userOf (entity : MessageEntity) : Option InputUser :=
  match entity.kind with
  | .inputMentionName user => some user
  | _ => none

def collected (l : List MessageEntity) : Collected where
  fetchUsers := marksFrom userOf 0 l
  checkEmojis := marksFrom emojiOf 0 l
  result := l.map dictOf

def acceptedOnes (entities : List MessageEntity) : List MessageEntity :=
  entities.filter fun e => accepted e.kind

section

variable {ctx : Context} {text : List Char} {entities : List MessageEntity}

theorem collect_of_passes (s : Collected) {e : MessageEntity}
    (passes : checkEntity (utf16 text) e = .ok ()) :
    collect (utf16 text) s e = .ok
      { fetchUsers := s.fetchUsers ++ marksFrom userOf s.result.length (acceptedOnes [e])
        checkEmojis := s.checkEmojis ++ marksFrom emojiOf s.result.length (acceptedOnes [e])
        result := s.result ++ (acceptedOnes [e]).map dictOf } := by
  obtain ⟨kind, offset, length⟩ := e
  rw [collect, passes]
  cases kind <;>
    simp [acceptedOnes, accepted, VALID_ENTITIES, marksFrom, userOf, emojiOf, dictOf, bind,
      Except.bind]

theorem collect_eq {l : List MessageEntity} {e : MessageEntity}
    (passes : checkEntity (utf16 text) e = .ok ()) :
    collect (utf16 text) (collected l) e = .ok (collected (l ++ acceptedOnes [e])) := by
  have size : (collected l).result.length = l.length := List.length_map dictOf
  rw [collect_of_passes _ passes, size]
  simp only [collected, marksFrom_append, List.map_append, Nat.zero_add]

theorem acceptedOnes_cons (e : MessageEntity) (l : List MessageEntity) :
    acceptedOnes (e :: l) = acceptedOnes [e] ++ acceptedOnes l := by
  rw [acceptedOnes, acceptedOnes, acceptedOnes, ← List.filter_append]
  rfl

theorem acceptedOnes_of_true {e : MessageEntity} (kept : accepted e.kind = true)
    {l : List MessageEntity} : acceptedOnes (e :: l) = e :: acceptedOnes l :=
  List.filter_cons_of_pos (p := fun e : MessageEntity => accepted e.kind) kept

theorem acceptedOnes_of_false {e : MessageEntity} (passed : accepted e.kind = false)
    {l : List MessageEntity} : acceptedOnes (e :: l) = acceptedOnes l :=
  List.filter_cons_of_neg (p := fun e : MessageEntity => accepted e.kind)
    (by rw [passed]; exact Bool.false_ne_true)

theorem collect_all {l : List MessageEntity}
    (passes : ∀ e ∈ entities, checkEntity (utf16 text) e = .ok ()) :
    entities.foldlM (collect (utf16 text)) (collected l) =
      .ok (collected (l ++ acceptedOnes entities)) := by
  induction entities generalizing l with
  | nil =>
    rw [acceptedOnes, List.filter_nil, List.append_nil]
    rfl
  | cons e entities ih =>
    obtain ⟨here, later⟩ := List.forall_mem_cons.mp passes
    rw [List.foldlM_cons, collect_eq here, acceptedOnes_cons e entities, ← List.append_assoc]
    exact ih later

theorem collect_of_raises {s : Collected} {e : MessageEntity} {failure : Failure}
    (raises : checkEntity (utf16 text) e = .error failure) :
    collect (utf16 text) s e = .error failure := by
  rw [collect, raises]
  rfl

theorem passes_or_fails (entities : List MessageEntity) :
    (∀ e ∈ entities, checkEntity (utf16 text) e = .ok ()) ∨
      ∃ front entity back failure, entities = front ++ entity :: back ∧
        (∀ e ∈ front, checkEntity (utf16 text) e = .ok ()) ∧
          checkEntity (utf16 text) entity = .error failure := by
  induction entities with
  | nil => exact .inl fun e mem => (nomatch mem)
  | cons e entities ih =>
    cases here : checkEntity (utf16 text) e with
    | error failure =>
      exact .inr ⟨[], e, entities, failure, rfl, fun f mem => (nomatch mem), here⟩
    | ok done =>
      cases done
      rcases ih with all | ⟨front, entity, back, failure, rfl, before, fails⟩
      · exact .inl (List.forall_mem_cons.mpr ⟨here, all⟩)
      · exact .inr ⟨e :: front, entity, back, failure, rfl,
          List.forall_mem_cons.mpr ⟨here, before⟩, fails⟩

theorem collect_fails {front back : List MessageEntity} {entity : MessageEntity}
    {failure : Failure} (before : ∀ e ∈ front, checkEntity (utf16 text) e = .ok ())
    (fails : checkEntity (utf16 text) entity = .error failure) :
    (front ++ entity :: back).foldlM (collect (utf16 text)) {} = .error failure := by
  have start : ({} : Collected) = collected [] := rfl
  rw [List.foldlM_append, start, collect_all before]
  show (entity :: back).foldlM (collect (utf16 text)) (collected ([] ++ acceptedOnes front)) = _
  rw [List.foldlM_cons, collect_of_raises fails]
  rfl

/-! ### The mentions of users -/

def fetchedId (ctx : Context) : InputUser → Option Int
  | .user userId accessHash =>
    if ctx.checkAccessHash ctx.userId ctx.authId userId accessHash then some userId else none
  | _ => none

theorem mem_gotUsers {fetchUsers : List (InputUser × Nat)} {target : Int} :
    target ∈ gotUsers ctx fetchUsers ↔ target = ctx.userId ∨
      (∃ user ∈ fetchUsers.map (·.1), fetchedId ctx user = some target) ∧
        ∃ peer ∈ ctx.peers, peer.ownerId = ctx.userId ∧ peer.userId = some target := by
  have ids : (fetchUsers.filterMap fun (inputUser, _) =>
      match inputUser with
      | .user userId accessHash =>
        if ctx.checkAccessHash ctx.userId ctx.authId userId accessHash then some userId else none
      | _ => none) = (fetchUsers.map (·.1)).filterMap (fetchedId ctx) := by
    rw [List.filterMap_map]
    congr 1
  rw [gotUsers, ids, List.mem_cons, ← List.mem_filterMap]
  refine or_congr_right ?_
  split
  case isTrue none_ =>
    rw [none_]
    exact ⟨fun mem => (nomatch mem), fun both => (nomatch both.1)⟩
  case isFalse =>
    rw [List.mem_filterMap]
    constructor
    · rintro ⟨peer, mem, is⟩
      obtain ⟨listed, checked⟩ := List.mem_filter.mp mem
      rw [Bool.and_eq_true, decide_eq_true_eq, is, Option.any_some, List.contains_iff_mem] at checked
      exact ⟨checked.2, peer, listed, checked.1, is⟩
    · rintro ⟨fetched, peer, listed, owner, is⟩
      refine ⟨peer, List.mem_filter.mpr ⟨listed, ?_⟩, is⟩
      rw [Bool.and_eq_true, decide_eq_true_eq, is, Option.any_some, List.contains_iff_mem]
      exact ⟨owner, fetched⟩

theorem filterMap_acceptedOnes {κ : Type} {mark : MessageEntity → Option κ}
    (only : ∀ e, accepted e.kind = false → mark e = none) (entities : List MessageEntity) :
    (acceptedOnes entities).filterMap mark = entities.filterMap mark := by
  induction entities with
  | nil => rfl
  | cons e entities ih =>
    cases kept : accepted e.kind with
    | true => rw [acceptedOnes_of_true kept, List.filterMap_cons, ih, List.filterMap_cons]
    | false => rw [acceptedOnes_of_false kept, ih, List.filterMap_cons_none (only e kept)]

theorem userOf_of_refused (e : MessageEntity) (refused : accepted e.kind = false) :
    userOf e = none := by
  obtain ⟨kind, offset, length⟩ := e
  cases kind <;> first | rfl | cases refused

theorem emojiOf_of_refused (e : MessageEntity) (refused : accepted e.kind = false) :
    emojiOf e = none := by
  obtain ⟨kind, offset, length⟩ := e
  cases kind <;> first | rfl | cases refused

theorem mem_gotUsers_iff {target : Int} :
    target ∈ gotUsers ctx (marksFrom userOf 0 (acceptedOnes entities)) ↔
      accessible ctx entities target = true := by
  have fetched (e : MessageEntity) :
      (match e.kind with
        | .inputMentionName (.user userId accessHash) =>
          decide (userId = target) && ctx.checkAccessHash ctx.userId ctx.authId userId accessHash
        | _ => false) = true ↔ ∃ user, userOf e = some user ∧ fetchedId ctx user = some target := by
    obtain ⟨kind, offset, length⟩ := e
    cases kind
    case inputMentionName user =>
      cases user <;> simp [userOf, fetchedId, and_comm]
    all_goals simp [userOf]
  rw [mem_gotUsers, map_fst_marksFrom, filterMap_acceptedOnes userOf_of_refused, accessible]
  simp only [Bool.or_eq_true, Bool.and_eq_true, decide_eq_true_eq, List.any_eq_true, fetched,
    List.mem_filterMap]
  refine or_congr_right (and_congr_left fun _ => ?_)
  constructor
  · rintro ⟨user, ⟨e, listed, is⟩, target⟩
    exact ⟨e, listed, user, is, target⟩
  · rintro ⟨e, listed, user, is, target⟩
    exact ⟨user, ⟨e, listed, is⟩, target⟩

def afterUsers (ctx : Context) (entities : List MessageEntity) (e : MessageEntity) :
    Option MessageEntity :=
  if dropped ctx entities e then none else some (resolved ctx e)

theorem resolved_of_plain {e : MessageEntity} (noUser : userOf e = none) : resolved ctx e = e := by
  obtain ⟨kind, offset, length⟩ := e
  cases kind <;> first | rfl | cases noUser

theorem dropped_of_plain {e : MessageEntity} (noUser : userOf e = none) :
    dropped ctx entities e = false := by
  obtain ⟨kind, offset, length⟩ := e
  cases kind <;> first | rfl | cases noUser

theorem dictOf_of_plain {e : MessageEntity} (noUser : userOf e = none) : dictOf e = e := by
  obtain ⟨kind, offset, length⟩ := e
  cases kind <;> first | rfl | cases noUser

theorem judgeUser_eq {e : MessageEntity} {user : InputUser} (is : userOf e = some user) :
    judgeUser ctx (gotUsers ctx (marksFrom userOf 0 (acceptedOnes entities))) user (dictOf e) =
      .ok (afterUsers ctx entities e) := by
  obtain ⟨kind, offset, length⟩ := e
  cases kind
  case inputMentionName =>
    cases is
    cases user with
    | empty => rfl
    | self =>
      have own : accessible ctx entities ctx.userId = true := by
        rw [accessible, decide_eq_true rfl, Bool.true_or]
      simp [judgeUser, afterUsers, dropped, resolved, dictOf, InputUser.target, own]
    | user target hash =>
      by_cases known : accessible ctx entities target = true <;>
        simp [judgeUser, afterUsers, dropped, resolved, dictOf, mem_gotUsers_iff,
          InputUser.target, known]
    | fromMessage target =>
      by_cases known : accessible ctx entities target = true <;>
        simp [judgeUser, afterUsers, dropped, resolved, dictOf, mem_gotUsers_iff,
          InputUser.target, known]
  all_goals cases is

theorem sweep_nil {α κ ε : Type} {missing : ε} {judge : κ → α → Except ε (Option α)}
    (l : List α) : sweep missing judge [] l = .ok l := rfl

theorem resolveUsers_eq : resolveUsers ctx (collected (acceptedOnes entities)) =
    .ok ((acceptedOnes entities).filterMap (afterUsers ctx entities)) := by
  have swept : sweep .other
      (judgeUser ctx (gotUsers ctx (marksFrom userOf 0 (acceptedOnes entities))))
      (marksFrom userOf 0 (acceptedOnes entities)) ((acceptedOnes entities).map dictOf) =
        .ok ((acceptedOnes entities).filterMap (afterUsers ctx entities)) := by
    have at_ := @sweep_marksFrom _ _ _ _ dictOf userOf
      (judgeUser ctx (gotUsers ctx (marksFrom userOf 0 (acceptedOnes entities)))) Failure.other []
      (acceptedOnes entities)
    rw [List.length_nil, List.nil_append] at at_
    have settled := (@settle_eq_ok_iff _ _ _ _ dictOf userOf
      (judgeUser ctx (gotUsers ctx (marksFrom userOf 0 (acceptedOnes entities))))
      (acceptedOnes entities) _).mpr ⟨fun e _ user is => ⟨_, judgeUser_eq is⟩, rfl⟩
    rw [at_, settled]
    refine congrArg Except.ok ((List.nil_append _).trans (List.filterMap_congr fun e _ => ?_))
    cases is : userOf e with
    | none =>
      rw [verdict_of_none is, afterUsers, dropped_of_plain is, dictOf_of_plain is,
        resolved_of_plain is]
      rfl
    | some user => rw [verdict_of_some is (judgeUser_eq is)]
  rw [resolveUsers]
  split
  case isTrue none_ =>
    have empty : marksFrom userOf 0 (acceptedOnes entities) = [] := none_
    rw [empty, sweep_nil] at swept
    exact swept
  case isFalse => exact swept

/-! ### The custom emojis -/

theorem emojiOf_of_afterUsers {e f : MessageEntity} (left : afterUsers ctx entities e = some f) :
    emojiOf f = emojiOf e := by
  rw [afterUsers] at left
  split at left
  case isTrue => cases left
  case isFalse =>
    cases left
    obtain ⟨kind, offset, length⟩ := e
    cases kind <;> rfl

theorem userOf_of_emoji {e : MessageEntity} {documentId : Int} (is : emojiOf e = some documentId) :
    userOf e = none := by
  obtain ⟨kind, offset, length⟩ := e
  cases kind <;> first | rfl | cases is

theorem afterUsers_of_emoji {e : MessageEntity} {documentId : Int}
    (is : emojiOf e = some documentId) : afterUsers ctx entities e = some e := by
  have noUser := userOf_of_emoji is
  rw [afterUsers, dropped_of_plain noUser, resolved_of_plain noUser]
  rfl

theorem dictOf_of_emoji {e : MessageEntity} {documentId : Int} (is : emojiOf e = some documentId) :
    afterUsers ctx entities e = some (dictOf e) := by
  rw [afterUsers_of_emoji is, dictOf_of_plain (userOf_of_emoji is)]

theorem settled_iff : Settled emojiOf (afterUsers ctx entities) (acceptedOnes entities) ↔
    entities.Pairwise fun e f => dropped ctx entities e = true → emojiOf f = none := by
  have gone (e : MessageEntity) : afterUsers ctx entities e = none ↔ dropped ctx entities e = true := by
    rw [afterUsers]
    split
    · exact ⟨fun _ => ‹_›, fun _ => rfl⟩
    · exact ⟨fun none_ => (nomatch none_), fun is => absurd is ‹_›⟩
  constructor
  · rintro ⟨pairs, -⟩
    refine (List.pairwise_filter.mp pairs).imp_of_mem ?_
    intro e f _ _ together drops
    by_contra emoji
    have first : accepted e.kind = true := by
      by_contra refused
      rw [Bool.not_eq_true] at refused
      rw [dropped_of_plain (userOf_of_refused e refused)] at drops
      cases drops
    have second : accepted f.kind = true := by
      by_contra refused
      rw [Bool.not_eq_true] at refused
      exact emoji (emojiOf_of_refused f refused)
    exact emoji (together first second ((gone e).mpr drops))
  · intro pairs
    refine ⟨?_, ?_⟩
    · exact (pairs.imp fun {e f} together drops => together ((gone e).mp drops)).filter _
    · intro e _ drops
      cases is : emojiOf e with
      | none => rfl
      | some documentId =>
        rw [afterUsers_of_emoji is] at drops
        cases drops

theorem judgedInPlace_iff (passes : ∀ e ∈ entities, checkEntity (utf16 text) e = .ok ()) :
    JudgedInPlace ctx text entities ↔
      entities.Pairwise fun e f => dropped ctx entities e = true → emojiOf f = none := by
  have all := @collect_all text entities [] passes
  rw [List.nil_append] at all
  rw [← settled_iff]
  have kept : ∀ e ∈ acceptedOnes entities, ∀ documentId, emojiOf e = some documentId →
      afterUsers ctx entities e = some (dictOf e) := fun e _ documentId is => dictOf_of_emoji is
  constructor
  · intro judged
    refine settled_of_places kept (fun e f left => emojiOf_of_afterUsers left) ?_
    exact judged _ _ all resolveUsers_eq
  · intro settled s result collects resolves m mem
    have same : s = collected (acceptedOnes entities) := Except.ok.inj (collects.symm.trans all)
    subst same
    obtain rfl := Except.ok.inj (resolves.symm.trans resolveUsers_eq)
    exact @places_of_settled _ _ _ _ _ _ _ kept settled [] [] rfl m mem

theorem emojiFits_iff {documentId : Int} {e : MessageEntity} {file : File} {covered : List Char}
    (found : emojiFile ctx documentId = some file) (inSet : file.stickersetId ≠ none)
    (units : slice (utf16 text) e.offset (e.offset + e.length) = utf16 covered) :
    emojiFits ctx text documentId e = true ↔ file.stickerAlt = some covered := by
  rw [emojiFits, found, Option.any_some, Bool.and_eq_true, Option.isSome_iff_ne_none,
    Option.any_eq_true]
  constructor
  · rintro ⟨-, alt, is, fits⟩
    rw [decide_eq_true_eq] at fits
    rw [is, utf16_injective (fits.symm.trans units)]
  · intro is
    exact ⟨inSet, covered, is, by rw [decide_eq_true_eq]; exact units⟩

theorem judgeEmoji_eq_ok_iff {documentId : Int} {e : MessageEntity} {kept : Option MessageEntity} :
    judgeEmoji ctx (utf16 text) documentId e = .ok kept ↔
      (∀ file, emojiFile ctx documentId = some file → file.stickersetId ≠ none →
        ∃ covered, slice (utf16 text) e.offset (e.offset + e.length) = utf16 covered) ∧
        kept = if emojiFits ctx text documentId e then some e else none := by
  rw [judgeEmoji]
  cases found : emojiFile ctx documentId with
  | none =>
    have misfit : emojiFits ctx text documentId e = false := by rw [emojiFits, found]; rfl
    rw [misfit]
    constructor
    · intro same
      exact ⟨fun file is => (nomatch is), (Except.ok.inj same).symm⟩
    · rintro ⟨-, rfl⟩
      rfl
  | some file =>
    dsimp only
    by_cases noSet : file.stickersetId = none
    · have misfit : emojiFits ctx text documentId e = false := by
        rw [emojiFits, found, Option.any_some, noSet]
        rfl
      rw [if_pos noSet, misfit]
      constructor
      · intro same
        refine ⟨fun other is inSet => ?_, (Except.ok.inj same).symm⟩
        cases is
        exact absurd noSet inSet
      · rintro ⟨-, rfl⟩
        rfl
    · rw [if_neg noSet, orRaise_bind_eq_ok]
      constructor
      · rintro ⟨covered, decoded, same⟩
        have units := decode_slice_iff.mp decoded
        refine ⟨fun _ _ _ => ⟨covered, units⟩, ?_⟩
        rw [← Except.ok.inj same]
        exact if_congr (emojiFits_iff found noSet units).symm rfl rfl
      · rintro ⟨readable, rfl⟩
        obtain ⟨covered, units⟩ := readable file rfl noSet
        exact ⟨covered, decode_slice_iff.mpr units,
          congrArg Except.ok (if_congr (emojiFits_iff found noSet units).symm rfl rfl)⟩

theorem removed_of_emoji {e : MessageEntity} {documentId : Int} (is : emojiOf e = some documentId) :
    removed ctx text entities e = !emojiFits ctx text documentId e := by
  rw [removed, dropped_of_plain (userOf_of_emoji is), is, Bool.false_or, Option.any_some]

/-! ### What is returned -/

/-- The entity is of an accepted kind and does not go. -/
def stays (ctx : Context) (text : List Char) (entities : List MessageEntity)
    (e : MessageEntity) : Bool :=
  accepted e.kind && !removed ctx text entities e

theorem filterMap_ite {α β : Type} (p : α → Bool) (f : α → β) (l : List α) :
    l.filterMap (fun a => if p a then some (f a) else none) = (l.filter p).map f := by
  induction l with
  | nil => rfl
  | cons a l ih =>
    rw [List.filterMap_cons, ih, List.filter_cons]
    cases p a <;> rfl

/-- What the second loop leaves, when it goes through. -/
theorem verdicts_eq (entities all : List MessageEntity)
    (readable : ∀ e ∈ entities, ∀ documentId, emojiOf e = some documentId →
      ∀ file, emojiFile ctx documentId = some file → file.stickersetId ≠ none →
        ∃ covered, slice (utf16 text) e.offset (e.offset + e.length) = utf16 covered) :
    ((acceptedOnes entities).filterMap (afterUsers ctx all)).filterMap
        (verdict id emojiOf (judgeEmoji ctx (utf16 text))) =
      (entities.filter (stays ctx text all)).map (resolved ctx) := by
  rw [← filterMap_ite, List.filterMap_filterMap, acceptedOnes, List.filterMap_filter]
  refine List.filterMap_congr fun e mem => ?_
  by_cases kept : accepted e.kind = true
  · rw [if_pos kept, stays, kept, Bool.true_and]
    cases is : emojiOf e with
    | some documentId =>
      have judged : judgeEmoji ctx (utf16 text) documentId (id e) =
          .ok (if emojiFits ctx text documentId e then some e else none) :=
        judgeEmoji_eq_ok_iff.mpr ⟨readable e mem documentId is, rfl⟩
      rw [afterUsers_of_emoji is, Option.bind_some, verdict_of_some is judged,
        removed_of_emoji is, Bool.not_not, resolved_of_plain (userOf_of_emoji is)]
    | none =>
      have removes : removed ctx text all e = dropped ctx all e := by
        rw [removed, is, Option.any_none, Bool.or_false]
      rw [removes, afterUsers]
      cases drops : dropped ctx all e with
      | true => rfl
      | false =>
        have unmarked : emojiOf (resolved ctx e) = none := by
          have left : afterUsers ctx all e = some (resolved ctx e) := by
            rw [afterUsers, drops]
            rfl
          rw [emojiOf_of_afterUsers left, is]
        exact verdict_of_none unmarked
  · rw [if_neg kept, stays, if_neg]
    rw [Bool.and_eq_true]
    exact fun both => kept both.1

theorem bounds_of_passes {e : MessageEntity} (passes : checkEntity (utf16 text) e = .ok ()) :
    0 ≤ e.offset ∧ e.offset + e.length ≤ (utf16 text).length := by
  have checked := (check_bind_eq_ok.mp passes).1
  rw [require_eq_ok] at checked
  simp only [Bool.and_eq_true, decide_eq_true_eq] at checked
  exact ⟨checked.1.1, checked.2⟩

/-- What is wanted stays; what stays is wanted unless its length is negative, or it mentions no
user. -/
theorem wanted_iff {e : MessageEntity} (passes : checkEntity (utf16 text) e = .ok ()) :
    wanted ctx text entities e = true ↔ stays ctx text entities e = true ∧
      ¬ (e.length < 0 ∨ e.kind = .inputMentionName .empty) := by
  obtain ⟨first, last⟩ := bounds_of_passes passes
  rw [wanted, stays, decide_eq_true first, decide_eq_true last, Bool.true_and, Bool.and_true,
    Bool.and_eq_true, Bool.and_eq_true, Bool.and_eq_true, decide_eq_true_eq, not_or, Int.not_lt]
  obtain ⟨kind, offset, length⟩ := e
  cases kind
  case inputMentionName user =>
    cases user <;> simp [accepted, removed, dropped, emojiOf, InputUser.target, and_comm]
  case customEmoji documentId => simp [accepted, removed, dropped, emojiOf, and_comm]
  all_goals simp [accepted, VALID_ENTITIES, removed, dropped, emojiOf]

theorem forall_of_filter_eq {α : Type} {p q : α → Bool} {l : List α}
    (part : ∀ a ∈ l, p a = true → q a = true)
    (even : (l.filter p).length = (l.filter q).length) : ∀ a ∈ l, q a = true → p a = true := by
  have fewer (l : List α) (part : ∀ a ∈ l, p a = true → q a = true) :
      (l.filter p).length ≤ (l.filter q).length := by
    rw [← List.countP_eq_length_filter, ← List.countP_eq_length_filter]
    exact List.countP_mono_left part
  induction l with
  | nil => exact fun a mem => (nomatch mem)
  | cons a l ih =>
    obtain ⟨here, later⟩ := List.forall_mem_cons.mp part
    have rest := fewer l later
    rw [List.filter_cons, List.filter_cons] at even
    cases first : p a with
    | true =>
      rw [first, here first, if_pos rfl, if_pos rfl, List.length_cons, List.length_cons] at even
      exact List.forall_mem_cons.mpr ⟨fun _ => first, ih later (Nat.succ.inj even)⟩
    | false =>
      rw [first, if_neg Bool.false_ne_true] at even
      cases second : q a with
      | true =>
        rw [second, if_pos rfl, List.length_cons] at even
        omega
      | false =>
        rw [second, if_neg Bool.false_ne_true] at even
        exact List.forall_mem_cons.mpr
          ⟨fun is => absurd (second.symm.trans is) Bool.false_ne_true, ih later even⟩

theorem sweep_emojis
    (ordered : entities.Pairwise fun e f => dropped ctx entities e = true → emojiOf f = none) :
    sweep .other (judgeEmoji ctx (utf16 text)) (marksFrom emojiOf 0 (acceptedOnes entities))
        ((acceptedOnes entities).filterMap (afterUsers ctx entities)) =
      settle id emojiOf (judgeEmoji ctx (utf16 text))
        ((acceptedOnes entities).filterMap (afterUsers ctx entities)) := by
  have marks := marksFrom_filterMap (settled_iff.mpr ordered)
    (fun e f left => emojiOf_of_afterUsers left) 0
  have swept := @sweep_marksFrom _ _ _ _ id emojiOf (judgeEmoji ctx (utf16 text)) Failure.other []
    ((acceptedOnes entities).filterMap (afterUsers ctx entities))
  rw [List.length_nil, List.nil_append, List.map_id, marks] at swept
  rw [swept]
  cases settle id emojiOf (judgeEmoji ctx (utf16 text))
    ((acceptedOnes entities).filterMap (afterUsers ctx entities)) <;> rfl

theorem validate_of_passes (some : entities ≠ []) (few : ¬ 1024 < entities.length)
    (passes : ∀ e ∈ entities, checkEntity (utf16 text) e = .ok ()) :
    validateMessageEntities ctx text entities =
      sweep .other (judgeEmoji ctx (utf16 text)) (marksFrom emojiOf 0 (acceptedOnes entities))
        ((acceptedOnes entities).filterMap (afterUsers ctx entities)) := by
  have all := @collect_all text entities [] passes
  rw [List.nil_append] at all
  rw [validateMessageEntities, if_neg some, if_neg few]
  show (entities.foldlM (collect (utf16 text)) (collected []) >>= _) = _
  rw [all]
  show (resolveUsers ctx (collected (acceptedOnes entities)) >>= _) = _
  rw [resolveUsers_eq]
  show (if marksFrom emojiOf 0 (acceptedOnes entities) = [] then _ else _) = _
  split
  case isTrue none_ => rw [none_, sweep_nil]
  case isFalse => rfl

theorem judgeEmoji_error {units : List Nat} {documentId : Int} {e : MessageEntity}
    {failure : Failure} (raised : judgeEmoji ctx units documentId e = .error failure) :
    failure = .other := by
  rw [judgeEmoji] at raised
  split at raised
  case h_1 => cases raised
  case h_2 =>
    split at raised
    case isTrue => cases raised
    case isFalse =>
      cases decoded : decode (slice units e.offset (e.offset + e.length)) with
      | none =>
        rw [decoded] at raised
        exact (Except.error.inj raised).symm
      | some covered =>
        rw [decoded] at raised
        cases raised

theorem mem_afterUsers_emoji {documentId : Int} {f : MessageEntity}
    (is : emojiOf f = some documentId) :
    f ∈ (acceptedOnes entities).filterMap (afterUsers ctx entities) ↔ f ∈ entities := by
  rw [List.mem_filterMap]
  constructor
  · rintro ⟨e, mem, left⟩
    have same : afterUsers ctx entities e = some e :=
      afterUsers_of_emoji ((emojiOf_of_afterUsers left).symm.trans is)
    rw [same] at left
    cases left
    exact (List.mem_filter.mp mem).1
  · intro mem
    refine ⟨f, List.mem_filter.mpr ⟨mem, ?_⟩, afterUsers_of_emoji is⟩
    by_contra refused
    rw [Bool.not_eq_true] at refused
    rw [emojiOf_of_refused f refused] at is
    cases is

theorem readable_iff :
    (∀ f ∈ (acceptedOnes entities).filterMap (afterUsers ctx entities), ∀ documentId,
      emojiOf f = some documentId → ∃ kept, judgeEmoji ctx (utf16 text) documentId (id f) = .ok kept) ↔
      ∀ e ∈ entities, ∀ documentId, emojiOf e = some documentId →
        ∀ file, emojiFile ctx documentId = some file → file.stickersetId ≠ none →
          ∃ covered, slice (utf16 text) e.offset (e.offset + e.length) = utf16 covered := by
  constructor
  · intro judged e mem documentId is
    obtain ⟨kept, here⟩ := judged e ((mem_afterUsers_emoji is).mpr mem) documentId is
    exact (judgeEmoji_eq_ok_iff.mp here).1
  · intro readable f mem documentId is
    exact ⟨_, judgeEmoji_eq_ok_iff.mpr
      ⟨readable f ((mem_afterUsers_emoji is).mp mem) documentId is, rfl⟩⟩

theorem stays_of_wanted (passes : ∀ e ∈ entities, checkEntity (utf16 text) e = .ok ()) :
    ∀ e ∈ entities, wanted ctx text entities e = true → stays ctx text entities e = true :=
  fun e mem is => ((wanted_iff (passes e mem)).mp is).1

theorem clean_of_returned (passes : ∀ e ∈ entities, checkEntity (utf16 text) e = .ok ())
    (ordered : entities.Pairwise fun e f => dropped ctx entities e = true → emojiOf f = none)
    (returned : sweep .other (judgeEmoji ctx (utf16 text))
        (marksFrom emojiOf 0 (acceptedOnes entities))
        ((acceptedOnes entities).filterMap (afterUsers ctx entities)) =
      .ok ((entities.filter (wanted ctx text entities)).map (resolved ctx))) :
    Clean ctx text entities := by
  rw [sweep_emojis ordered] at returned
  obtain ⟨judged, same⟩ := settle_eq_ok_iff.mp returned
  have readable := readable_iff.mp judged
  refine ⟨passes, ordered, readable, fun e mem kept unwelcome => ?_⟩
  rw [verdicts_eq entities entities readable] at same
  have even := congrArg List.length same
  rw [List.length_map, List.length_map] at even
  have all := forall_of_filter_eq (stays_of_wanted passes) even
  by_contra there
  rw [Bool.not_eq_true] at there
  have staying : stays ctx text entities e = true := by
    rw [stays, kept, there]
    rfl
  exact ((wanted_iff (passes e mem)).mp (all e mem staying)).2 unwelcome

theorem returned_of_clean (clean : Clean ctx text entities) :
    sweep .other (judgeEmoji ctx (utf16 text)) (marksFrom emojiOf 0 (acceptedOnes entities))
        ((acceptedOnes entities).filterMap (afterUsers ctx entities)) =
      .ok ((entities.filter (wanted ctx text entities)).map (resolved ctx)) := by
  have same : entities.filter (wanted ctx text entities) =
      entities.filter (stays ctx text entities) := by
    refine List.filter_congr fun e mem => ?_
    rw [Bool.eq_iff_iff, wanted_iff (clean.passes e mem)]
    refine and_iff_left_of_imp fun staying unwelcome => ?_
    rw [stays, Bool.and_eq_true] at staying
    rw [clean.welcome e mem staying.1 unwelcome] at staying
    cases staying.2
  rw [sweep_emojis clean.ordered, settle_eq_ok_iff]
  refine ⟨readable_iff.mpr clean.readable, ?_⟩
  rw [verdicts_eq entities entities clean.readable, same]

/-- The outcome is right exactly when there are too many entities, one of them is refused, or they
are clean. -/
theorem validate_right_iff (ctx : Context) (text : List Char) (entities : List MessageEntity) :
    Right ctx text entities (validateMessageEntities ctx text entities) ↔
      1024 < entities.length ∨ Refused text entities ∨ Clean ctx text entities := by
  by_cases none_ : entities = []
  · subst none_
    have clean : Clean ctx text [] := ⟨fun e mem => (nomatch mem), .nil,
      fun e mem => (nomatch mem), fun e mem => (nomatch mem)⟩
    exact ⟨fun _ => .inr (.inr clean), fun _ => .inr ⟨rfl, (judgedInPlace_iff clean.passes).mpr .nil⟩⟩
  by_cases many : 1024 < entities.length
  · refine ⟨fun _ => .inl many, fun _ => .inl ⟨400, "ENTITIES_TOO_LONG", ?_⟩⟩
    rw [validateMessageEntities, if_neg none_, if_pos many]
    rfl
  rcases @passes_or_fails text entities with
    passes | ⟨front, entity, back, failure, split, before, fails⟩
  · have calm : ¬ Refused text entities := by
      rintro ⟨front, entity, back, code, message, rfl, -, fails⟩
      rw [passes entity (List.mem_append_right _ List.mem_cons_self)] at fails
      cases fails
    rw [validate_of_passes none_ many passes]
    constructor
    · rintro (⟨code, message, raised⟩ | ⟨returned, judged⟩)
      · rcases error_of_sweep raised with same | ⟨documentId, e, failed⟩
        · cases same
        · cases judgeEmoji_error failed
      · exact .inr (.inr (clean_of_returned passes ((judgedInPlace_iff passes).mp judged) returned))
    · rintro (tooMany | refused | clean)
      · exact absurd tooMany many
      · exact absurd refused calm
      · exact .inr ⟨returned_of_clean clean, (judgedInPlace_iff passes).mpr clean.ordered⟩
  · have fold := @collect_fails text front back entity failure before fails
    have outcome : validateMessageEntities ctx text entities = .error failure := by
      rw [validateMessageEntities, if_neg none_, if_neg many, split, fold]
      rfl
    rw [outcome]
    constructor
    · rintro (⟨code, message, raised⟩ | ⟨returned, -⟩)
      · cases raised
        exact .inr (.inl ⟨front, entity, back, code, message, split, before, fails⟩)
      · cases returned
    · rintro (tooMany | ⟨front', entity', back', code, message, split', before', fails'⟩ | clean)
      · exact absurd tooMany many
      · have again := @collect_fails text front' back' entity' _ before' fails'
        rw [← split', split, fold] at again
        exact .inl ⟨code, message, congrArg Except.error (Except.error.inj again)⟩
      · have pass := clean.passes entity (split ▸ List.mem_append_right _ List.mem_cons_self)
        rw [pass] at fails
        cases fails

end

private def oneEmoji : Context where
  peers := []
  files := ⟨[⟨7, .documentEmoji, some 1, some ['b']⟩], List.nodup_singleton _⟩
  userId := 1
  authId := 1
  checkAccessHash := fun _ _ _ _ => false

private def mentionThenEmoji : List MessageEntity :=
  [⟨.inputMentionName (.user 5 0), 0, 1⟩, ⟨.customEmoji 7, 1, 1⟩]

/-- The place of the emoji is behind the end of the result once the mention is gone. -/
theorem emoji_misplaced : ¬ ∀ ctx text entities,
    Right ctx text entities (validateMessageEntities ctx text entities) := by
  intro right
  have raised : validateMessageEntities oneEmoji ['a', 'b'] mentionThenEmoji = .error .other := rfl
  have here := right oneEmoji ['a', 'b'] mentionThenEmoji
  rw [raised] at here
  rcases here with ⟨code, message, same⟩ | ⟨same, -⟩
  · cases same
  · cases same

end Piltover.Entities
