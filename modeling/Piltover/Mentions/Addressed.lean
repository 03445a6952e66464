/- source: piltover/app/handlers/messages/sending.py, piltover/db/models/message_mention.py,
     piltover/db/models/username.py, piltover/db/models/chat_participant.py
   digest: Who is mentioned by a message to a group, and whom the message addresses. -/

import Piltover.Failure
import Piltover.Foundation.Slices
import Piltover.Foundation.Table

set_option autoImplicit false

namespace Piltover.Mentions

open Piltover.Foundation
open Piltover.Foundation.Slices

abbrev Text := List Char

structure User where
  id : Nat
  username : Option Text
  deriving DecidableEq, Repr

/-- A basic group or a channel. -/
inductive Place
  | chat (id : Nat)
  | channel (id : Nat)
  deriving DecidableEq, Repr

/-- The conversation that a member of a basic group has with it. -/
structure GroupPeer where
  ownerId : Nat
  chatId : Nat
  deriving DecidableEq, Repr

/-- A row of `ChatParticipant`. Those of a basic group are deleted when the member goes, those of
a channel are marked. -/
structure ChatParticipant where
  userId : Nat
  place : Place
  left : Bool
  deriving DecidableEq, Repr

def ChatParticipant.key (p : ChatParticipant) : Nat × Place := (p.userId, p.place)

/-- A reference to a message, with the author of its content. -/
structure MessageRef where
  id : Nat
  peerId : Nat
  authorId : Option Nat
  deriving DecidableEq, Repr

structure MessageMention where
  userId : Nat
  place : Place
  messageId : Nat
  deriving DecidableEq, Repr

/-- The owners of peers and the participants are users. -/
structure Db where
  users : Table User.id
  peers : Table (id : GroupPeer → GroupPeer)
  participants : Table ChatParticipant.key
  messages : Table MessageRef.id
  ownersKnown : ∀ p ∈ peers, (users.get p.ownerId).isSome = true
  participantsKnown : ∀ p ∈ participants, (users.get p.userId).isSome = true

/-- The peer that a message is sent to. -/
inductive Peer
  | chat (id chatId : Nat)
  | channel (id channelId : Nat) (supergroup : Bool)
  | other (id : Nat)
  deriving DecidableEq, Repr

namespace Peer

def id : Peer → Nat
  | .chat id _ => id
  | .channel id _ _ => id
  | .other id => id

/-- The basic group or supergroup. -/
def place : Peer → Option Place
  | .chat _ chatId => some (.chat chatId)
  | .channel _ channelId true => some (.channel channelId)
  | _ => none

end Peer

/-- An entity as it is stored: its offsets count UTF-16 code units. -/
inductive Entity
  | mention (offset length : Int)
  | mentionName (offset length : Int) (userId : Nat)
  | other
  deriving DecidableEq, Repr

namespace Entity

/-- `text[offset + 1:offset + length]` of a mention. -/
def username (text : Text) : Entity → Option Text
  | .mention offset length => some (slice text (offset + 1) (offset + length))
  | _ => none

def userId : Entity → Option Nat
  | .mentionName _ _ userId => some userId
  | _ => none

def nameUnits (text : Text) : Entity → Option (List Nat)
  | .mention offset length => some (slice (utf16 text) (offset + 1) (offset + length))
  | _ => none

end Entity

/-- What is sent: the identifier of the message that it replies to is the one that is looked up,
and that of its content is new. -/
structure Request where
  peer : Peer
  authorId : Nat
  text : Option Text
  entities : Option (List Entity)
  replyToMessageId : Option Nat
  contentId : Nat
  /-- `process_message_entities` has no entities for a message without a text. -/
  processed : text.all List.isEmpty = true → entities = none
  deriving DecidableEq

namespace Db

variable (db : Db)

def extractMentionsFromMessage (entities : List Entity) (text : Text) (authorId : Nat) : List Nat :=
  let usernames := entities.filterMap (Entity.username text)
  let userIds := entities.filterMap Entity.userId
  if usernames.isEmpty && userIds.isEmpty then []
  else (db.users.rows.filter fun u => u.id != authorId &&
    (u.username.any usernames.contains || userIds.contains u.id)).map User.id

/-- The users whom the joins of `User` with the peers or participants of the place find. -/
def joined : Place → List User
  | .chat chatId =>
    (db.peers.rows.filter fun p => p.chatId == chatId).filterMap fun p => db.users.get p.ownerId
  | .channel channelId =>
    (db.participants.rows.filter fun p => p.place == .channel channelId).filterMap fun p =>
      db.users.get p.userId

/-- The rows of `MessageMention` that `send_created_messages_internal` creates. -/
def createMentions (place : Place) (mentionedUserIds : List (Option Nat)) (contentId : Nat) :
    List MessageMention :=
  ((db.joined place).filter fun u => mentionedUserIds.contains (some u.id)).map fun u =>
    ⟨u.id, place, contentId⟩

end Db

namespace Request

variable (r : Request) (db : Db)

/-- The message that is replied to. -/
def replyTo : Except Failure (Option MessageRef) :=
  match r.replyToMessageId with
  | none => .ok none
  | some 0 => .ok none
  | some id =>
    match (db.messages.get id).filter fun m => m.peerId == r.peer.id with
    | some m => .ok (some m)
    | none => .error (.rpc 400 "REPLY_TO_INVALID")

def extracted : List Nat :=
  match r.entities, r.text with
  | some entities, some text =>
    if entities.isEmpty || text.isEmpty then []
    else db.extractMentionsFromMessage entities text r.authorId
  | _, _ => []

/-- `mentioned_user_ids`; the author of a message can be missing. -/
def mentionedUserIds (replyTo : Option MessageRef) : List (Option Nat) :=
  (r.extracted db).map some ++ (replyTo.map MessageRef.authorId).toList

/-- `send_message_internal` with `send_created_messages_internal`, as far as mentions go. -/
def send : Except Failure (List MessageMention) :=
  (r.replyTo db).map fun replyTo =>
    match r.peer.place with
    | none => []
    | some place => db.createMentions place (r.mentionedUserIds db replyTo) r.contentId

end Request

/-! ### Whom a message addresses -/

section Addressed

variable (db : Db) (r : Request)

def Present (place : Place) (userId : Nat) : Prop :=
  ∃ p ∈ db.participants, p.userId = userId ∧ p.place = place ∧ p.left = false

def Listed (place : Place) (userId : Nat) : Prop := ∃ u ∈ db.joined place, u.id = userId

def NamedByUnits (userId : Nat) : Prop :=
  ∃ text entities, r.text = some text ∧ r.entities = some entities ∧
    ∃ u ∈ db.users, u.id = userId ∧ ∃ name, u.username = some name ∧
      some (utf16 name) ∈ entities.map (Entity.nameUnits text)

def NamedByCharacters (userId : Nat) : Prop :=
  ∃ text entities, r.text = some text ∧ r.entities = some entities ∧
    ∃ u ∈ db.users, u.id = userId ∧ ∃ name, u.username = some name ∧
      some name ∈ entities.map (Entity.username text)

def NamedById (userId : Nat) : Prop :=
  ∃ entities, r.entities = some entities ∧ some userId ∈ entities.map Entity.userId

def RepliedTo (userId : Nat) : Prop :=
  ∃ m, r.replyTo db = .ok (some m) ∧ m.authorId = some userId

def Addressed (place : Place) (userId : Nat) : Prop :=
  userId ≠ r.authorId ∧ Present db place userId ∧
    (NamedByUnits db r userId ∨ NamedById r userId ∨ RepliedTo db r userId)

/-- Exactly the addressed members of a group or supergroup are mentioned, each of them once. -/
def ExactlyAddressed : Prop :=
  ∀ place mentions, r.peer.place = some place → r.send db = .ok mentions →
    (mentions.map MessageMention.userId).Nodup ∧
      (∀ m ∈ mentions, m.place = place ∧ m.messageId = r.contentId) ∧
      ∀ userId, userId ∈ mentions.map MessageMention.userId ↔ Addressed db r place userId

/-- The users whom the code would mention if their rows were those of the members. -/
def Meant (userId : Nat) : Prop := NamedById r userId ∨ RepliedTo db r userId

/-- When the members whom a message addresses are those whom it mentions. -/
structure Meets (place : Place) : Prop where
  /-- The author does not reply to themself. -/
  own : RepliedTo db r r.authorId → ¬ Listed db place r.authorId
  /-- Those who are named in any way have a row exactly as long as they are members. -/
  members : ∀ userId, userId ≠ r.authorId →
    Meant db r userId ∨ (NamedByUnits db r userId ∧ NamedByCharacters db r userId) →
    (Listed db place userId ↔ Present db place userId)
  /-- No row is that of a user whom only the characters of a mention name. -/
  characters : ∀ userId, userId ≠ r.authorId → ¬ Meant db r userId → NamedByCharacters db r userId →
    ¬ NamedByUnits db r userId → ¬ Listed db place userId
  /-- No member is one whom only the code units of a mention name. -/
  units : ∀ userId, userId ≠ r.authorId → ¬ Meant db r userId → NamedByUnits db r userId →
    ¬ NamedByCharacters db r userId → ¬ Present db place userId

end Addressed

/-! ### Who is mentioned -/

section Mentioned

variable {db : Db} {r : Request} {place : Place}

theorem keys_sublist {ρ α : Type} {key : ρ → Nat} (t : Table key) (f : α → Nat) (l : List α) :
    ((l.filterMap fun a => t.get (f a)).map key).Sublist (l.map f) := by
  induction l with
  | nil => exact List.Sublist.slnil
  | cons a l ih =>
    cases found : t.get (f a) with
    | none =>
      simp only [List.filterMap_cons, found]
      exact ih.trans (List.sublist_cons_self _ _)
    | some row =>
      have named : key row = f a := (Table.get_eq_some_iff.mp found).2
      simp only [List.filterMap_cons, found, List.map_cons, named]
      exact ih.cons_cons _

theorem nodup_joined (db : Db) (place : Place) : ((db.joined place).map User.id).Nodup := by
  cases place with
  | chat chatId =>
    refine List.Nodup.sublist (keys_sublist db.users GroupPeer.ownerId _) ?_
    refine List.Nodup.map_on ?_ (List.Nodup.filter _ (List.Nodup.of_map _ db.peers.unique))
    intro p here q there same
    obtain ⟨-, first⟩ := List.mem_filter.mp here
    obtain ⟨-, second⟩ := List.mem_filter.mp there
    have chats : p.chatId = q.chatId := (beq_iff_eq.mp first).trans (beq_iff_eq.mp second).symm
    cases p
    cases q
    simp_all only
  | channel channelId =>
    refine List.Nodup.sublist (keys_sublist db.users ChatParticipant.userId _) ?_
    refine List.Nodup.map_on ?_ (List.Nodup.filter _ (List.Nodup.of_map _ db.participants.unique))
    intro p here q there same
    obtain ⟨present, first⟩ := List.mem_filter.mp here
    obtain ⟨present', second⟩ := List.mem_filter.mp there
    have places : p.place = q.place := (beq_iff_eq.mp first).trans (beq_iff_eq.mp second).symm
    exact Table.eq_of_key_eq present present' (Prod.ext same places)

theorem mem_users_of_mem_joined {u : User} (here : u ∈ db.joined place) : u ∈ db.users := by
  have found : ∃ id, db.users.get id = some u := by
    cases place with
    | chat chatId =>
      obtain ⟨p, -, found⟩ := List.mem_filterMap.mp here
      exact ⟨_, found⟩
    | channel channelId =>
      obtain ⟨p, -, found⟩ := List.mem_filterMap.mp here
      exact ⟨_, found⟩
  obtain ⟨id, found⟩ := found
  exact (Table.get_eq_some_iff.mp found).1

theorem mem_extractMentionsFromMessage {entities : List Entity} {text : Text} {authorId userId : Nat} :
    userId ∈ db.extractMentionsFromMessage entities text authorId ↔
      userId ≠ authorId ∧ ∃ u ∈ db.users, u.id = userId ∧
        ((∃ name, u.username = some name ∧ some name ∈ entities.map (Entity.username text)) ∨
          some userId ∈ entities.map Entity.userId) := by
  have found : ∀ u : User, (u.username.any (entities.filterMap (Entity.username text)).contains ||
      (entities.filterMap Entity.userId).contains u.id) = true ↔
      (∃ name, u.username = some name ∧ some name ∈ entities.map (Entity.username text)) ∨
        some u.id ∈ entities.map Entity.userId := by
    intro u
    simp only [Bool.or_eq_true, Option.any_eq_true, List.contains_iff_mem, List.mem_filterMap,
      List.mem_map]
  unfold Db.extractMentionsFromMessage
  dsimp only
  split
  · rename_i nobody
    simp only [Bool.and_eq_true, List.isEmpty_iff] at nobody
    constructor
    · intro listed
      cases listed
    · rintro ⟨-, u, -, rfl, named⟩
      have hit := (found u).mpr named
      rw [nobody.1, nobody.2] at hit
      cases called : u.username <;> simp [called] at hit
  · simp only [List.mem_map, List.mem_filter, Bool.and_eq_true, bne_iff_ne, found]
    constructor
    · rintro ⟨u, ⟨here, other, named⟩, rfl⟩
      exact ⟨other, u, here, rfl, named⟩
    · rintro ⟨other, u, here, rfl, named⟩
      exact ⟨u, ⟨here, other, named⟩, rfl⟩

theorem mem_extracted {userId : Nat} (listed : Listed db place userId) :
    userId ∈ r.extracted db ↔
      userId ≠ r.authorId ∧ (NamedByCharacters db r userId ∨ NamedById r userId) := by
  obtain ⟨known, joined, rfl⟩ := listed
  have user : known ∈ db.users := mem_users_of_mem_joined joined
  unfold Request.extracted
  cases entities : r.entities with
  | none => simp [NamedByCharacters, NamedById, entities]
  | some entities' =>
    cases text : r.text with
    | none =>
      have nothing := r.processed (by rw [text]; rfl)
      rw [entities] at nothing
      cases nothing
    | some text' =>
      have written : text'.isEmpty = false := by
        by_contra empty
        have nothing := r.processed (by rw [text]; simpa using empty)
        rw [entities] at nothing
        cases nothing
      dsimp only
      rw [written, Bool.or_false]
      split
      · rename_i nobody
        have none' : entities' = [] := List.isEmpty_iff.mp nobody
        simp [NamedByCharacters, NamedById, entities, none']
      · rw [mem_extractMentionsFromMessage]
        refine and_congr_right fun _ => ?_
        unfold NamedByCharacters NamedById
        constructor
        · rintro ⟨u, here, same, named⟩
          rcases named with ⟨name, called, listed⟩ | listed
          · exact .inl ⟨text', entities', text, entities, u, here, same, name, called, listed⟩
          · exact .inr ⟨entities', entities, listed⟩
        · rintro (⟨t, es, rfl', es', u, here, same, name, called, listed⟩ | ⟨es, es', listed⟩)
          · rw [text] at rfl'
            rw [entities] at es'
            cases rfl'
            cases es'
            exact ⟨u, here, same, .inl ⟨name, called, listed⟩⟩
          · rw [entities] at es'
            cases es'
            exact ⟨known, user, rfl, .inr listed⟩

theorem send_eq_ok_iff {mentions : List MessageMention} (group : r.peer.place = some place) :
    r.send db = .ok mentions ↔ ∃ replyTo, r.replyTo db = .ok replyTo ∧
      db.createMentions place (r.mentionedUserIds db replyTo) r.contentId = mentions := by
  rw [Request.send, map_eq_ok, group]

theorem mem_createMentions {replyTo : Option MessageRef} (found : r.replyTo db = .ok replyTo)
    {userId : Nat} :
    userId ∈ (db.createMentions place (r.mentionedUserIds db replyTo) r.contentId).map
        MessageMention.userId ↔
      Listed db place userId ∧
        ((userId ≠ r.authorId ∧ (NamedByCharacters db r userId ∨ NamedById r userId)) ∨
          RepliedTo db r userId) := by
  have replied : some userId ∈ (replyTo.map MessageRef.authorId).toList ↔ RepliedTo db r userId := by
    unfold RepliedTo
    rw [found]
    cases replyTo <;> simp [eq_comm]
  have taken : userId ∈ (db.createMentions place (r.mentionedUserIds db replyTo) r.contentId).map
      MessageMention.userId ↔
      Listed db place userId ∧ some userId ∈ r.mentionedUserIds db replyTo := by
    simp only [Db.createMentions, List.map_map, List.mem_map, List.mem_filter, Function.comp_apply,
      List.contains_iff_mem, Listed]
    constructor
    · rintro ⟨u, ⟨here, named⟩, rfl⟩
      exact ⟨⟨u, here, rfl⟩, named⟩
    · rintro ⟨⟨u, here, rfl⟩, named⟩
      exact ⟨u, ⟨here, named⟩, rfl⟩
  rw [taken]
  refine and_congr_right fun listed => ?_
  rw [Request.mentionedUserIds, List.mem_append, replied]
  refine or_congr_left ?_
  rw [List.mem_map]
  simp only [Option.some.injEq, exists_eq_right]
  exact mem_extracted listed

theorem createMentions_nodup (ids : List (Option Nat)) (contentId : Nat) :
    ((db.createMentions place ids contentId).map MessageMention.userId).Nodup := by
  have same : (db.createMentions place ids contentId).map MessageMention.userId =
      ((db.joined place).filter fun u => ids.contains (some u.id)).map User.id := by
    simp [Db.createMentions]
  rw [same]
  exact (nodup_joined db place).sublist (List.filter_sublist.map _)

theorem of_mem_createMentions {ids : List (Option Nat)} {contentId : Nat} {m : MessageMention}
    (created : m ∈ db.createMentions place ids contentId) :
    m.place = place ∧ m.messageId = contentId := by
  obtain ⟨u, -, rfl⟩ := List.mem_map.mp created
  exact ⟨rfl, rfl⟩

/-- For one user, the code does what it should exactly when the user is not one of those that
`Meets` excludes. -/
theorem mentioned_iff_addressed_iff (db : Db) (r : Request) (place : Place) :
    (∀ userId, (Listed db place userId ∧
        ((userId ≠ r.authorId ∧ (NamedByCharacters db r userId ∨ NamedById r userId)) ∨
          RepliedTo db r userId)) ↔ Addressed db r place userId) ↔
      Meets db r place := by
  constructor
  · intro agree
    refine ⟨?_, ?_, ?_, ?_⟩
    · intro replied listed
      exact ((agree r.authorId).mp ⟨listed, .inr replied⟩).1 rfl
    · rintro userId other named
      constructor
      · intro listed
        have mentioned : (userId ≠ r.authorId ∧
            (NamedByCharacters db r userId ∨ NamedById r userId)) ∨ RepliedTo db r userId := by
          rcases named with (byId | replied) | ⟨-, byCharacters⟩
          · exact .inl ⟨other, .inr byId⟩
          · exact .inr replied
          · exact .inl ⟨other, .inl byCharacters⟩
        exact ((agree userId).mp ⟨listed, mentioned⟩).2.1
      · intro present
        refine ((agree userId).mpr ⟨other, present, ?_⟩).1
        rcases named with (byId | replied) | ⟨byUnits, -⟩
        · exact .inr (.inl byId)
        · exact .inr (.inr replied)
        · exact .inl byUnits
    · intro userId other unmeant byCharacters apart listed
      rcases ((agree userId).mp ⟨listed, .inl ⟨other, .inl byCharacters⟩⟩).2.2 with
        byUnits | meant
      · exact apart byUnits
      · exact unmeant meant
    · intro userId other unmeant byUnits apart present
      rcases ((agree userId).mpr ⟨other, present, .inl byUnits⟩).2 with
        ⟨-, byCharacters | byId⟩ | replied
      · exact apart byCharacters
      · exact unmeant (.inl byId)
      · exact unmeant (.inr replied)
  · intro meets userId
    constructor
    · rintro ⟨listed, mentioned⟩
      have other : userId ≠ r.authorId := by
        rcases mentioned with ⟨other, -⟩ | replied
        · exact other
        · rintro rfl
          exact meets.own replied listed
      by_cases meant : Meant db r userId
      · exact ⟨other, (meets.members userId other (.inl meant)).mp listed, .inr meant⟩
      · have byCharacters : NamedByCharacters db r userId := by
          rcases mentioned with ⟨-, byCharacters | byId⟩ | replied
          · exact byCharacters
          · exact absurd (.inl byId) meant
          · exact absurd (.inr replied) meant
        have byUnits : NamedByUnits db r userId := by
          by_contra apart
          exact meets.characters userId other meant byCharacters apart listed
        have present := (meets.members userId other (.inr ⟨byUnits, byCharacters⟩)).mp listed
        exact ⟨other, present, .inl byUnits⟩
    · rintro ⟨other, present, named⟩
      by_cases meant : Meant db r userId
      · refine ⟨(meets.members userId other (.inl meant)).mpr present, ?_⟩
        rcases meant with byId | replied
        · exact .inl ⟨other, .inr byId⟩
        · exact .inr replied
      · have byUnits : NamedByUnits db r userId := named.resolve_right meant
        have byCharacters : NamedByCharacters db r userId := by
          by_contra apart
          exact meets.units userId other meant byUnits apart present
        exact ⟨(meets.members userId other (.inr ⟨byUnits, byCharacters⟩)).mpr present,
          .inl ⟨other, .inl byCharacters⟩⟩

/-- The members whom a message addresses are mentioned, each once and nobody else, exactly when
the message is not refused for its reply or nothing comes between characters and code units, rows
and members, the author and their own message. -/
theorem exactlyAddressed_iff (db : Db) (r : Request) :
    ExactlyAddressed db r ↔ ∀ place replyTo, r.peer.place = some place →
      r.replyTo db = .ok replyTo → Meets db r place := by
  constructor
  · intro exact place replyTo group found
    have sent := (send_eq_ok_iff group).mpr ⟨replyTo, found, rfl⟩
    obtain ⟨-, -, agree⟩ := exact place _ group sent
    refine (mentioned_iff_addressed_iff db r place).mp fun userId => ?_
    rw [← mem_createMentions found]
    exact agree userId
  · intro meets place mentions group sent
    obtain ⟨replyTo, found, rfl⟩ := (send_eq_ok_iff group).mp sent
    refine ⟨createMentions_nodup _ _, fun m created => of_mem_createMentions created, ?_⟩
    intro userId
    rw [mem_createMentions found]
    exact (mentioned_iff_addressed_iff db r place).mpr (meets place replyTo group found) userId

end Mentioned

/-! ### A message that mentions nobody -/

/-- A group of the users 1 and 2, of whom the second is called bob. -/
def bobsGroup : Db where
  users := Table.empty.insertMany [⟨1, some "ann".toList⟩, ⟨2, some "bob".toList⟩]
  peers := Table.empty.insertMany [⟨1, 5⟩, ⟨2, 5⟩]
  participants := Table.empty.insertMany [⟨1, .chat 5, false⟩, ⟨2, .chat 5, false⟩]
  messages := Table.empty
  ownersKnown := by decide
  participantsKnown := by decide

/-- The mention of bob behind a smiling face, which takes two code units. -/
def smilingRequest : Request where
  peer := .chat 7 5
  authorId := 1
  text := some "😀@bob".toList
  entities := some [.mention 2 4]
  replyToMessageId := none
  contentId := 9
  processed := by decide

theorem bob_not_mentioned : ¬ ExactlyAddressed bobsGroup smilingRequest := by
  intro exact
  have sent : smilingRequest.send bobsGroup = .ok [] := by decide
  obtain ⟨-, -, agree⟩ := exact (.chat 5) [] rfl sent
  have addressed : Addressed bobsGroup smilingRequest (.chat 5) 2 := by
    refine ⟨by decide, ⟨⟨2, .chat 5, false⟩, Table.mem_def.mpr (by decide), rfl, rfl, rfl⟩, .inl ?_⟩
    exact ⟨"😀@bob".toList, [.mention 2 4], rfl, rfl, ⟨2, some "bob".toList⟩,
      Table.mem_def.mpr (by decide), rfl, "bob".toList, rfl, by decide⟩
  cases (agree 2).mpr addressed

end Piltover.Mentions
