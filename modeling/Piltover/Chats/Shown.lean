/- source: piltover/db/models/chat.py, piltover/db/models/chat_base.py, piltover/cache.py
   digest: What clients are shown of basic groups, one by one and in bulk, and what is cached. -/

import Piltover.Channels.Discussion
import Piltover.Foundation.OrderedDict
import Piltover.Foundation.SharedCache

set_option autoImplicit false

namespace Piltover.Chats.Shown

open Foundation
open Channels (ChatPhoto)

structure File where
  id : Nat
  photoStripped : Option (List UInt8)
  deriving DecidableEq, Repr

/-- A row of `Chat` with the columns that are formatted. -/
structure Chat where
  id : Nat
  name : String
  version : Nat
  creatorId : Nat
  photoId : Option Nat
  noForwards : Bool
  bannedRights : Nat
  createdAt : Nat
  deleted : Bool
  participantsCount : Int
  migrated : Bool
  deriving DecidableEq, Repr

/-- A channel that a chat was migrated to. -/
structure Channel where
  id : Nat
  migratedFromId : Nat
  deriving DecidableEq, Repr

/-- `migrated_from` is one to one. -/
structure Db where
  chats : Table Chat.id
  files : Table File.id
  channels : Table Channel.migratedFromId

/-- `ChatToFormat`; an absent photo is `ChatPhotoEmpty`. -/
structure ChatToFormat where
  creatorId : Nat
  deactivated : Bool
  noforwards : Bool
  id : Nat
  title : String
  photo : Option ChatPhoto
  participantsCount : Int
  date : Nat
  version : Nat
  migratedTo : Option Nat
  defaultBannedRights : Nat
  deriving DecidableEq, Repr

inductive TLChatBase
  | chat (shown : ChatToFormat)
  | forbidden (id : Nat) (title : String)
  deriving DecidableEq, Repr

/-- `to_tl_chat_photo_internal`. -/
def toTlChatPhoto (photo : File) : ChatPhoto where
  hasVideo := false
  photoId := photo.id
  dcId := 2
  strippedThumb := photo.photoStripped

namespace Chat

variable (chat : Chat)

/-- `_to_tl`. -/
def toTlWith (photo : Option File) (migratedToId : Option Nat) : ChatToFormat where
  creatorId := chat.creatorId
  deactivated := chat.migrated
  noforwards := chat.noForwards
  id := chat.id
  title := chat.name
  photo := photo.map toTlChatPhoto
  participantsCount := chat.participantsCount
  date := chat.createdAt
  version := chat.version
  migratedTo := migratedToId
  defaultBannedRights := chat.bannedRights

def cacheKey : Nat × Nat := (chat.id, chat.version)

/-- The `ChatForbidden` of the chat. -/
def forbidden : TLChatBase := .forbidden (chat.id * 2) chat.name

end Chat

namespace Db

variable (db : Db)

def photoOf (chat : Chat) : Option File := chat.photoId.bind db.files.get

/-- The channel whose `migrated_from` is the chat. -/
def migratedTo (chatId : Nat) : Option Nat := (db.channels.get chatId).map Channel.id

/-- A chat as it was loaded, perhaps together with its photo and with the channel that it was
migrated to. -/
structure ChatObject where
  chat : Chat
  photo : Option File
  migratedTo : Option (Option Nat)
  stored : chat ∈ db.chats
  photo_stored : ∀ file ∈ photo, db.photoOf chat = some file
  migratedTo_stored : ∀ channelId ∈ migratedTo, db.migratedTo chat.id = channelId

abbrev ChatCache := Cache (Nat × Nat) ChatToFormat

variable {db}

/-- `Chat.to_tl`: the answer, and what is stored in the cache. -/
def toTl (cache : ChatCache) (o : db.ChatObject) :
    TLChatBase × Option ((Nat × Nat) × ChatToFormat) :=
  if o.chat.deleted then (o.chat.forbidden, none)
  else match cache o.chat.cacheKey with
    | some cached => (.chat cached, none)
    | none =>
      let migratedToId :=
        if o.chat.migrated then
          some (match o.migratedTo with
            | some loaded => loaded.getD 0
            | none => (db.migratedTo o.chat.id).getD 0)
        else none
      let photo := match o.photo with
        | some photo => some photo
        | none => db.photoOf o.chat
      let result := o.chat.toTlWith photo migratedToId
      (.chat result, some (o.chat.cacheKey, result))

def cachedChats (cache : ChatCache) (chats : List db.ChatObject) : List (Option ChatToFormat) :=
  (chats.filter fun o => !o.chat.deleted).map fun o => cache o.chat.cacheKey

def processingChats (cache : ChatCache) (chats : List db.ChatObject) : List db.ChatObject :=
  ((chats.zip (cachedChats cache chats)).filter fun p => p.2.isNone && !p.1.chat.deleted).map
    Prod.fst

def migratedTos (processing : List db.ChatObject) : OrderedDict Nat Nat :=
  if processing.any fun o => o.chat.migrated then
    .ofPairs ((db.channels.rows.filter fun channel =>
      processing.any fun o => o.chat.id == channel.migratedFromId).map fun channel =>
        (channel.migratedFromId, channel.id))
  else ∅

/-- A pair of `chat_by_photo`. -/
def unloadedPhoto (o : db.ChatObject) : Option (Nat × Nat) :=
  if o.photo.isSome then none else o.chat.photoId.map fun photo => (photo, o.chat.id)

def chatByPhoto (processing : List db.ChatObject) : OrderedDict Nat Nat :=
  .ofPairs (processing.filterMap unloadedPhoto)

/-- The photos that are queried, and then those that were loaded. -/
def photoPairs (processing : List db.ChatObject) : List (Nat × File) :=
  (db.files.rows.filterMap fun photo =>
      ((chatByPhoto processing).lookup photo.id).map fun chatId => (chatId, photo)) ++
    processing.filterMap fun o => o.photo.map fun photo => (o.chat.id, photo)

def photos (processing : List db.ChatObject) : OrderedDict Nat File := .ofPairs (photoPairs processing)

def shown (processing : List db.ChatObject) (o : db.ChatObject) : ChatToFormat :=
  o.chat.toTlWith ((photos processing).lookup o.chat.id) ((migratedTos processing).lookup o.chat.id)

/-- `Chat.to_tl_bulk`: the answers, and what is stored in the cache. -/
def toTlBulk (cache : ChatCache) (chats : List db.ChatObject) :
    List TLChatBase × List ((Nat × Nat) × ChatToFormat) :=
  let cachedChats := cachedChats cache chats
  let processing := processingChats cache chats
  ((chats.zip cachedChats).flatMap fun (o, cached) =>
      (if o.chat.deleted then [o.chat.forbidden] else []) ++
        [.chat (cached.getD (shown processing o))],
    (chats.zip cachedChats).filterMap fun (o, cached) =>
      if cached.isSome then none else some (o.chat.cacheKey, shown processing o))

/-! ### What the bulk is to be -/

/-- Each chat is answered as it is alone, and what is stored is what is stored for one of them. -/
def Pointwise (cache : ChatCache) (chats : List db.ChatObject) : Prop :=
  (toTlBulk cache chats).1 = chats.map (fun o => (toTl cache o).1) ∧
    ∀ pair, pair ∈ (toTlBulk cache chats).2 ↔ ∃ o ∈ chats, (toTl cache o).2 = some pair

/-- The chats that are neither deleted nor cached. -/
def uncached (cache : ChatCache) (chats : List db.ChatObject) : List db.ChatObject :=
  chats.filter fun o => !o.chat.deleted && (cache o.chat.cacheKey).isNone

/-- A deleted chat is followed by others, which are all cached and not deleted. -/
def DeletedFollowed (cache : ChatCache) (chats : List db.ChatObject) : Prop :=
  ∀ before o after, chats = before ++ o :: after → o.chat.deleted = true →
    after ≠ [] ∧ ∀ p ∈ after, p.chat.deleted = false ∧ (cache p.chat.cacheKey).isSome = true

/-- A migrated chat has a channel; none has that was not migrated and is formatted with one that
was. -/
def MigratedRight (processing : List db.ChatObject) : Prop :=
  ∀ o ∈ processing, if o.chat.migrated then (db.migratedTo o.chat.id).isSome = true
    else (∃ p ∈ processing, p.chat.migrated = true) → db.migratedTo o.chat.id = none

/-- A chat that has a photo is loaded with it, or is the last one that has it and is not. -/
def PhotosKept (processing : List db.ChatObject) : Prop :=
  ∀ o ∈ processing, db.photoOf o.chat = none ∨
    (∃ p ∈ processing, p.chat.id = o.chat.id ∧ p.photo.isSome = true) ∨
    ∃ before p after, processing = before ++ p :: after ∧ p.chat.id = o.chat.id ∧
      ∀ q ∈ after, q.photo.isSome = true ∨ q.chat.photoId ≠ o.chat.photoId

variable {cache : ChatCache} {chats processing : List db.ChatObject} {o p : db.ChatObject}

theorem chat_eq (same : o.chat.id = p.chat.id) : o.chat = p.chat :=
  Table.eq_of_key_eq o.stored p.stored same

/-! ### One chat -/

def migratedToId (o : db.ChatObject) : Option Nat :=
  if o.chat.migrated then some ((db.migratedTo o.chat.id).getD 0) else none

/-- What is shown of a chat that is neither deleted nor cached. -/
def alone (o : db.ChatObject) : ChatToFormat := o.chat.toTlWith (db.photoOf o.chat) (migratedToId o)

theorem toTl_of_deleted (deleted : o.chat.deleted = true) :
    toTl cache o = (o.chat.forbidden, none) := by
  rw [toTl, if_pos deleted]

theorem toTl_of_cached {cached : ChatToFormat} (live : o.chat.deleted = false)
    (found : cache o.chat.cacheKey = some cached) : toTl cache o = (.chat cached, none) := by
  rw [toTl, if_neg (Bool.eq_false_iff.mp live), found]

theorem toTl_of_uncached (live : o.chat.deleted = false) (missing : cache o.chat.cacheKey = none) :
    toTl cache o = (.chat (alone o), some (o.chat.cacheKey, alone o)) := by
  have photo : (match o.photo with
      | some photo => some photo
      | none => db.photoOf o.chat) = db.photoOf o.chat := by
    cases loaded : o.photo with
    | none => rfl
    | some photo => exact (o.photo_stored photo loaded).symm
  have channel : (match o.migratedTo with
      | some loaded => loaded.getD 0
      | none => (db.migratedTo o.chat.id).getD 0) = (db.migratedTo o.chat.id).getD 0 := by
    cases loaded : o.migratedTo with
    | none => rfl
    | some channelId => rw [o.migratedTo_stored channelId loaded]
  simp only [toTl, live, Bool.false_eq_true, if_false, missing, photo, channel, alone, migratedToId]

theorem stored_iff {pair : (Nat × Nat) × ChatToFormat} : (toTl cache o).2 = some pair ↔
    (o.chat.deleted = false ∧ cache o.chat.cacheKey = none) ∧ (o.chat.cacheKey, alone o) = pair := by
  cases deleted : o.chat.deleted with
  | true => simp [toTl_of_deleted deleted]
  | false =>
    cases found : cache o.chat.cacheKey with
    | some cached => simp [toTl_of_cached deleted found]
    | none => simp [toTl_of_uncached deleted found]

/-! ### What is collected for several chats -/

theorem unloadedPhoto_eq_some_iff {photo chatId : Nat} : unloadedPhoto o = some (photo, chatId) ↔
    o.photo = none ∧ o.chat.photoId = some photo ∧ o.chat.id = chatId := by
  rw [unloadedPhoto]
  split
  case isTrue loaded =>
    refine iff_of_false nofun fun both => ?_
    rw [both.1] at loaded
    cases loaded
  case isFalse unloaded =>
    rw [Option.map_eq_some_iff]
    constructor
    · rintro ⟨photo', has, same⟩
      obtain ⟨rfl, rfl⟩ := Prod.mk.inj same
      exact ⟨Option.not_isSome_iff_eq_none.mp unloaded, has, rfl⟩
    · rintro ⟨-, has, rfl⟩
      exact ⟨photo, has, rfl⟩

theorem chatByPhoto_lookup {photo chatId : Nat} :
    (chatByPhoto processing).lookup photo = some chatId ↔
      ∃ before p after, processing = before ++ p :: after ∧
        unloadedPhoto p = some (photo, chatId) ∧
        ∀ q ∈ after, q.photo.isSome = true ∨ q.chat.photoId ≠ some photo := by
  rw [chatByPhoto, OrderedDict.lookup_ofPairs_eq_some_iff]
  constructor
  · rintro ⟨front, back, split, unset⟩
    obtain ⟨before, rest, rfl, -, tail⟩ := List.filterMap_eq_append_iff.mp split
    obtain ⟨skipped, p, after, rfl, -, here, rfl⟩ := List.filterMap_eq_cons_iff.mp tail
    refine ⟨before ++ skipped, p, after, (List.append_assoc _ _ _).symm, here, fun q listed => ?_⟩
    by_contra both
    obtain ⟨unloaded, has⟩ := not_or.mp both
    have pair := unloadedPhoto_eq_some_iff.mpr
      ⟨Option.not_isSome_iff_eq_none.mp unloaded, not_not.mp has, rfl⟩
    exact unset _ (List.mem_filterMap.mpr ⟨q, listed, pair⟩) rfl
  · rintro ⟨before, p, after, rfl, here, unset⟩
    refine ⟨before.filterMap unloadedPhoto, after.filterMap unloadedPhoto, ?_, ?_⟩
    · rw [List.filterMap_append, List.filterMap_cons_some here]
    · rintro ⟨photo', chatId'⟩ listed rfl
      obtain ⟨q, there, built⟩ := List.mem_filterMap.mp listed
      obtain ⟨unloaded, has, -⟩ := unloadedPhoto_eq_some_iff.mp built
      rcases unset q there with loaded | other
      · rw [unloaded] at loaded
        cases loaded
      · exact other has

theorem photoPairs_own {photo : File} (listed : (o.chat.id, photo) ∈ photoPairs processing) :
    db.photoOf o.chat = some photo := by
  rcases List.mem_append.mp listed with queried | loaded
  · obtain ⟨file, stored, built⟩ := List.mem_filterMap.mp queried
    obtain ⟨chatId, found, same⟩ := Option.map_eq_some_iff.mp built
    obtain ⟨rfl, rfl⟩ := Prod.mk.inj same
    obtain ⟨_, p, _, _, pair, _⟩ := chatByPhoto_lookup.mp found
    obtain ⟨-, has, own⟩ := unloadedPhoto_eq_some_iff.mp pair
    rw [← chat_eq own, photoOf, has]
    exact Table.mem_iff_get.mp stored
  · obtain ⟨p, _, built⟩ := List.mem_filterMap.mp loaded
    obtain ⟨file, has, same⟩ := Option.map_eq_some_iff.mp built
    obtain ⟨own, rfl⟩ := Prod.mk.inj same
    rw [← chat_eq own]
    exact p.photo_stored file has

theorem mem_photoPairs_iff {chatId : Nat} : (∃ photo, (chatId, photo) ∈ photoPairs processing) ↔
    (∃ file ∈ db.files, (chatByPhoto processing).lookup file.id = some chatId) ∨
      ∃ p ∈ processing, p.chat.id = chatId ∧ p.photo.isSome = true := by
  simp only [photoPairs, List.mem_append, List.mem_filterMap, exists_or]
  refine or_congr ?_ ?_
  · constructor
    · rintro ⟨photo, file, stored, built⟩
      obtain ⟨_, found, same⟩ := Option.map_eq_some_iff.mp built
      obtain ⟨rfl, rfl⟩ := Prod.mk.inj same
      exact ⟨file, stored, found⟩
    · rintro ⟨file, stored, found⟩
      exact ⟨file, file, stored, by rw [found]; rfl⟩
  · constructor
    · rintro ⟨photo, p, listed, built⟩
      obtain ⟨_, has, same⟩ := Option.map_eq_some_iff.mp built
      obtain ⟨rfl, rfl⟩ := Prod.mk.inj same
      exact ⟨p, listed, rfl, by rw [has]; rfl⟩
    · rintro ⟨p, listed, rfl, loaded⟩
      obtain ⟨photo, has⟩ := Option.isSome_iff_exists.mp loaded
      exact ⟨photo, p, listed, by rw [has]; rfl⟩

theorem exists_chatByPhoto_iff {file : File} (has : db.photoOf o.chat = some file) :
    (∃ f ∈ db.files, (chatByPhoto processing).lookup f.id = some o.chat.id) ↔
      ∃ before p after, processing = before ++ p :: after ∧
        (p.photo = none ∧ p.chat.id = o.chat.id) ∧
        ∀ q ∈ after, q.photo.isSome = true ∨ q.chat.photoId ≠ o.chat.photoId := by
  obtain ⟨photo, has, found⟩ := Option.bind_eq_some_iff.mp has
  obtain ⟨stored, key⟩ := Table.get_eq_some_iff.mp found
  constructor
  · rintro ⟨f, -, leads⟩
    obtain ⟨before, p, after, split, pair, unset⟩ := chatByPhoto_lookup.mp leads
    obtain ⟨unloaded, own, same⟩ := unloadedPhoto_eq_some_iff.mp pair
    rw [chat_eq same] at own
    exact ⟨before, p, after, split, ⟨unloaded, same⟩, by rwa [own]⟩
  · rintro ⟨before, p, after, split, ⟨unloaded, same⟩, unset⟩
    rw [has] at unset
    refine ⟨file, stored, ?_⟩
    rw [key]
    refine chatByPhoto_lookup.mpr ⟨before, p, after, split, ?_, unset⟩
    exact unloadedPhoto_eq_some_iff.mpr ⟨unloaded, by rw [chat_eq same, has], same⟩

theorem lookup_photos_iff : (photos processing).lookup o.chat.id = db.photoOf o.chat ↔
    db.photoOf o.chat = none ∨ ∃ photo, (o.chat.id, photo) ∈ photoPairs processing :=
  OrderedDict.lookup_ofPairs_eq_iff fun _ listed => photoPairs_own listed

theorem photosKept_iff : PhotosKept processing ↔
    ∀ o ∈ processing, (photos processing).lookup o.chat.id = db.photoOf o.chat := by
  refine forall₂_congr fun o listed => ?_
  rw [lookup_photos_iff, mem_photoPairs_iff]
  cases has : db.photoOf o.chat with
  | none => exact iff_of_true (.inl rfl) (.inl rfl)
  | some file =>
    refine or_congr_right ?_
    rw [exists_chatByPhoto_iff has, or_comm]
    constructor
    · rintro (⟨before, p, after, split, same, unset⟩ | loaded)
      · cases unloaded : p.photo with
        | none => exact .inl ⟨before, p, after, split, ⟨unloaded, same⟩, unset⟩
        | some photo =>
          refine .inr ⟨p, ?_, same, by rw [unloaded]; rfl⟩
          rw [split]
          exact List.mem_append_right _ List.mem_cons_self
      · exact .inr loaded
    · rintro (⟨before, p, after, split, ⟨-, same⟩, unset⟩ | loaded)
      · exact .inl ⟨before, p, after, split, same, unset⟩
      · exact .inr loaded

theorem lookup_migratedTos (listed : o ∈ processing) : (migratedTos processing).lookup o.chat.id =
    if processing.any fun p => p.chat.migrated then db.migratedTo o.chat.id else none := by
  rw [migratedTos]
  split
  case isFalse => exact AList.lookup_empty _
  case isTrue =>
    have asked (channel : Channel) (of : channel.migratedFromId = o.chat.id) :
        (processing.any fun p => p.chat.id == channel.migratedFromId) = true :=
      List.any_eq_true.mpr ⟨o, listed, beq_iff_eq.mpr of.symm⟩
    ext channelId
    rw [OrderedDict.lookup_ofPairs_iff, List.mem_map, migratedTo,
      Option.map_eq_some_iff]
    · constructor
      · rintro ⟨channel, stored, same⟩
        obtain ⟨of, rfl⟩ := Prod.mk.inj same
        exact ⟨channel, Table.get_eq_some_iff.mpr ⟨(List.mem_filter.mp stored).1, of⟩, rfl⟩
      · rintro ⟨channel, found, rfl⟩
        obtain ⟨stored, of⟩ := Table.get_eq_some_iff.mp found
        exact ⟨channel, List.mem_filter.mpr ⟨stored, asked channel of⟩, Prod.ext of rfl⟩
    · rw [List.map_map]
      exact db.channels.nodup_filter _

theorem migratedRight_iff : MigratedRight processing ↔
    ∀ o ∈ processing, (migratedTos processing).lookup o.chat.id = migratedToId o := by
  refine forall₂_congr fun o listed => ?_
  rw [lookup_migratedTos listed, migratedToId]
  cases migrated : o.chat.migrated with
  | true =>
    have some_ : (processing.any fun p => p.chat.migrated) = true :=
      List.any_eq_true.mpr ⟨o, listed, migrated⟩
    rw [some_, if_pos rfl, if_pos rfl, if_pos rfl]
    cases db.migratedTo o.chat.id with
    | none => exact iff_of_false nofun nofun
    | some channelId => exact iff_of_true rfl rfl
  | false =>
    rw [if_neg Bool.false_ne_true, if_neg Bool.false_ne_true]
    split
    case isTrue some_ => exact imp_iff_right (List.any_eq_true.mp some_)
    case isFalse none_ =>
      refine iff_of_true (fun some_ => absurd ?_ none_) rfl
      exact List.any_eq_true.mpr some_

theorem toTlChatPhoto_injective : Function.Injective toTlChatPhoto := by
  rintro ⟨id, stripped⟩ ⟨id', stripped'⟩ same
  obtain ⟨-, rfl, -, rfl⟩ := ChatPhoto.mk.inj same
  rfl

theorem shown_eq_alone_iff : shown processing o = alone o ↔
    (photos processing).lookup o.chat.id = db.photoOf o.chat ∧
      (migratedTos processing).lookup o.chat.id = migratedToId o := by
  simp only [shown, alone, Chat.toTlWith, ChatToFormat.mk.injEq, true_and, and_true]
  exact and_congr_left fun _ => (Option.map_injective toTlChatPhoto_injective).eq_iff

theorem shown_right_iff : (∀ o ∈ processing, shown processing o = alone o) ↔
    MigratedRight processing ∧ PhotosKept processing := by
  rw [migratedRight_iff, photosKept_iff, ← forall₂_and]
  exact forall₂_congr fun o _ => shown_eq_alone_iff.trans and_comm

/-! ### Which chat gets which answer -/

/-- The answers, when a chat that is not cached is shown as `f` shows it. -/
def answers (f : db.ChatObject → ChatToFormat) (chats : List db.ChatObject)
    (cachedChats : List (Option ChatToFormat)) : List TLChatBase :=
  (chats.zip cachedChats).flatMap fun (o, cached) =>
    (if o.chat.deleted then [o.chat.forbidden] else []) ++ [.chat (cached.getD (f o))]

variable {f : db.ChatObject → ChatToFormat}

theorem answers_cons_of_live (live : o.chat.deleted = false) (k : Option ChatToFormat)
    (ks : List (Option ChatToFormat)) :
    answers f (o :: chats) (k :: ks) = .chat (k.getD (f o)) :: answers f chats ks := by
  simp only [answers, List.zip_cons_cons, List.flatMap_cons, live, Bool.false_eq_true, if_false,
    List.nil_append, List.singleton_append]

theorem answers_cons_of_deleted (deleted : o.chat.deleted = true) (k : Option ChatToFormat)
    (ks : List (Option ChatToFormat)) : answers f (o :: chats) (k :: ks) =
      o.chat.forbidden :: .chat (k.getD (f o)) :: answers f chats ks := by
  simp only [answers, List.zip_cons_cons, List.flatMap_cons, deleted, if_true, List.cons_append,
    List.nil_append]

theorem answers_nil : answers f chats [] = [] := by
  rw [answers, List.zip_nil_right, List.flatMap_nil]

theorem cachedChats_cons_of_live (live : o.chat.deleted = false) :
    cachedChats cache (o :: chats) = cache o.chat.cacheKey :: cachedChats cache chats := by
  rw [cachedChats, List.filter_cons_of_pos (by rw [live]; rfl), List.map_cons]
  rfl

theorem cachedChats_cons_of_deleted (deleted : o.chat.deleted = true) :
    cachedChats cache (o :: chats) = cachedChats cache chats := by
  rw [cachedChats, List.filter_cons_of_neg (by rw [deleted]; exact Bool.false_ne_true)]
  rfl

theorem cachedChats_eq_nil_iff :
    cachedChats cache chats = [] ↔ ∀ o ∈ chats, o.chat.deleted = true := by
  rw [cachedChats, List.map_eq_nil_iff, List.filter_eq_nil_iff]
  refine forall₂_congr fun o _ => ?_
  cases o.chat.deleted <;> decide

/-- The chat is not deleted, and is cached. -/
def Kept (cache : ChatCache) (o : db.ChatObject) : Prop :=
  o.chat.deleted = false ∧ (cache o.chat.cacheKey).isSome = true

theorem behind_iff (named : ∀ o, (f o).id = o.chat.id) {k : Option ChatToFormat}
    {ks : List (Option ChatToFormat)} (next : cachedChats cache chats = k :: ks)
    (before : o.chat.deleted = true ∨ Kept cache o) :
    .chat (k.getD (f o)) :: answers f chats ks = chats.map (fun p => (toTl cache p).1) ↔
      ∀ p ∈ chats, Kept cache p := by
  induction chats generalizing o k ks with
  | nil => cases next
  | cons r rest ih =>
    cases deleted : r.chat.deleted with
    | true =>
      rw [List.map_cons, toTl_of_deleted deleted]
      refine iff_of_false (fun same => ?_) fun all => ?_
      · cases (List.cons.inj same).1
      · have live := (all r List.mem_cons_self).1
        rw [deleted] at live
        cases live
    | false =>
      rw [cachedChats_cons_of_live deleted] at next
      obtain ⟨rfl, rfl⟩ := List.cons.inj next
      cases found : cache r.chat.cacheKey with
      | none =>
        rw [List.map_cons, toTl_of_uncached deleted found]
        refine iff_of_false (fun same => ?_) fun all => ?_
        · have shown_ : f o = alone r := TLChatBase.chat.inj (List.cons.inj same).1
          have own : o.chat = r.chat := chat_eq (by rw [← named o, shown_]; rfl)
          rcases before with gone | ⟨-, cached⟩
          · rw [own, deleted] at gone
            cases gone
          · rw [own, found] at cached
            cases cached
        · have cached := (all r List.mem_cons_self).2
          rw [found] at cached
          cases cached
      | some cached =>
        have kept : Kept cache r := ⟨deleted, by rw [found]; rfl⟩
        rw [List.map_cons, toTl_of_cached deleted found, List.forall_mem_cons,
          and_iff_right kept, List.cons.injEq, Option.getD_some, and_iff_right rfl]
        cases others : cachedChats cache rest with
        | nil =>
          have gone := cachedChats_eq_nil_iff.mp others
          rw [answers_nil]
          cases rest with
          | nil => exact iff_of_true rfl nofun
          | cons p rest =>
            refine iff_of_false nofun fun all => ?_
            have live := (all p List.mem_cons_self).1
            rw [gone p List.mem_cons_self] at live
            cases live
        | cons k ks =>
          rw [answers_cons_of_live deleted]
          exact ih others (.inr kept)

theorem deletedFollowed_cons_iff : DeletedFollowed cache (o :: chats) ↔
    (o.chat.deleted = true → chats ≠ [] ∧ ∀ p ∈ chats, Kept cache p) ∧
      DeletedFollowed cache chats := by
  constructor
  · intro followed
    refine ⟨followed [] o chats rfl, fun before p after split => ?_⟩
    exact followed (o :: before) p after (by rw [split]; rfl)
  · rintro ⟨first, rest⟩ before p after split
    cases before with
    | nil =>
      obtain ⟨rfl, rfl⟩ := List.cons.inj split
      exact first
    | cons q before =>
      obtain ⟨rfl, rfl⟩ := List.cons.inj split
      exact rest before p after rfl

theorem deletedFollowed_of_kept (kept : ∀ p ∈ chats, Kept cache p) :
    DeletedFollowed cache chats := by
  rintro before p after rfl deleted
  have live := (kept p (List.mem_append_right _ List.mem_cons_self)).1
  rw [deleted] at live
  cases live

theorem uncached_of_kept (kept : ∀ p ∈ chats, Kept cache p) : uncached cache chats = [] := by
  refine List.filter_eq_nil_iff.mpr fun p listed => ?_
  obtain ⟨live, cached⟩ := kept p listed
  rw [Bool.and_eq_true, Option.isNone_iff_eq_none, ← Option.not_isSome_iff_eq_none]
  exact fun both => both.2 cached

theorem answers_eq_iff (named : ∀ o, (f o).id = o.chat.id) :
    answers f chats (cachedChats cache chats) = chats.map (fun o => (toTl cache o).1) ↔
      DeletedFollowed cache chats ∧ ∀ o ∈ uncached cache chats, f o = alone o := by
  induction chats with
  | nil => exact iff_of_true rfl ⟨fun before o after split => by simp at split, nofun⟩
  | cons o rest ih =>
    rw [deletedFollowed_cons_iff]
    cases deleted : o.chat.deleted with
    | false =>
      rw [cachedChats_cons_of_live deleted, answers_cons_of_live deleted, List.map_cons,
        List.cons.injEq, ih, and_iff_right (absurd · Bool.false_ne_true)]
      cases found : cache o.chat.cacheKey with
      | some cached =>
        have skipped : uncached cache (o :: rest) = uncached cache rest :=
          List.filter_cons_of_neg (by simp [found])
        rw [toTl_of_cached deleted found, skipped]
        exact and_iff_right rfl
      | none =>
        have first : uncached cache (o :: rest) = o :: uncached cache rest :=
          List.filter_cons_of_pos (by simp [deleted, found])
        rw [toTl_of_uncached deleted found, first, List.forall_mem_cons]
        exact ⟨fun both => ⟨both.2.1, TLChatBase.chat.inj both.1, both.2.2⟩,
          fun both => ⟨congrArg TLChatBase.chat both.2.1, both.1, both.2.2⟩⟩
    | true =>
      have skipped : uncached cache (o :: rest) = uncached cache rest :=
        List.filter_cons_of_neg (by simp [deleted])
      rw [cachedChats_cons_of_deleted deleted, imp_iff_right rfl, skipped]
      cases others : cachedChats cache rest with
      | nil =>
        rw [answers_nil]
        refine iff_of_false nofun ?_
        rintro ⟨⟨⟨some_, kept⟩, -⟩, -⟩
        obtain ⟨p, listed⟩ := List.exists_mem_of_ne_nil rest some_
        have live := (kept p listed).1
        rw [cachedChats_eq_nil_iff.mp others p listed] at live
        cases live
      | cons k ks =>
        have some_ : rest ≠ [] := by
          rintro rfl
          cases others
        rw [answers_cons_of_deleted deleted, List.map_cons, toTl_of_deleted deleted,
          List.cons.injEq, and_iff_right rfl, behind_iff named others (.inl deleted)]
        constructor
        · intro kept
          refine ⟨⟨⟨some_, kept⟩, deletedFollowed_of_kept kept⟩, ?_⟩
          rw [uncached_of_kept kept]
          exact nofun
        · rintro ⟨⟨⟨-, kept⟩, -⟩, -⟩
          exact kept

/-! ### The bulk -/

theorem zip_uncached (followed : DeletedFollowed cache chats) :
    (chats.zip (cachedChats cache chats)).filter (fun p => p.2.isNone) =
      (uncached cache chats).map fun o => (o, none) := by
  induction chats with
  | nil => rfl
  | cons o rest ih =>
    obtain ⟨first, later⟩ := deletedFollowed_cons_iff.mp followed
    cases deleted : o.chat.deleted with
    | false =>
      rw [cachedChats_cons_of_live deleted, List.zip_cons_cons]
      cases found : cache o.chat.cacheKey with
      | some cached =>
        have skipped : uncached cache (o :: rest) = uncached cache rest :=
          List.filter_cons_of_neg (by simp [found])
        rw [List.filter_cons_of_neg (by simp), ih later, skipped]
      | none =>
        have first : uncached cache (o :: rest) = o :: uncached cache rest :=
          List.filter_cons_of_pos (by simp [deleted, found])
        rw [List.filter_cons_of_pos (by simp), ih later, first, List.map_cons]
    | true =>
      obtain ⟨-, kept⟩ := first deleted
      have skipped : uncached cache (o :: rest) = uncached cache rest :=
        List.filter_cons_of_neg (by simp [deleted])
      rw [skipped, uncached_of_kept kept, cachedChats_cons_of_deleted deleted, List.map_nil,
        List.filter_eq_nil_iff]
      rintro ⟨p, cached⟩ listed missing
      obtain ⟨q, there, rfl⟩ := List.mem_map.mp (List.of_mem_zip listed).2
      have found := (kept q (List.mem_filter.mp there).1).2
      have none_ : cache q.chat.cacheKey = none := Option.isNone_iff_eq_none.mp missing
      rw [none_] at found
      cases found

theorem live_of_uncached (listed : o ∈ uncached cache chats) :
    o.chat.deleted = false ∧ cache o.chat.cacheKey = none := by
  have passes := (List.mem_filter.mp listed).2
  simpa using passes

theorem processingChats_eq (followed : DeletedFollowed cache chats) :
    processingChats cache chats = uncached cache chats := by
  have live : ((uncached cache chats).map fun o => (o, (none : Option ChatToFormat))).filter
      (fun p => !p.1.chat.deleted) = (uncached cache chats).map fun o => (o, none) := by
    refine List.filter_eq_self.mpr fun p listed => ?_
    obtain ⟨o, there, rfl⟩ := List.mem_map.mp listed
    rw [(live_of_uncached there).1]
    rfl
  have split : (chats.zip (cachedChats cache chats)).filter
      (fun p => p.2.isNone && !p.1.chat.deleted) =
      ((chats.zip (cachedChats cache chats)).filter fun p => p.2.isNone).filter
        fun p => !p.1.chat.deleted := by
    rw [List.filter_filter]
    exact List.filter_congr fun p _ => Bool.and_comm _ _
  rw [processingChats, split, zip_uncached followed, live, List.map_map]
  exact List.map_id _

theorem toTlBulk_stored (followed : DeletedFollowed cache chats) :
    (toTlBulk cache chats).2 = (uncached cache chats).map fun o =>
      (o.chat.cacheKey, shown (uncached cache chats) o) := by
  have missing : (toTlBulk cache chats).2 =
      ((chats.zip (cachedChats cache chats)).filter fun p => p.2.isNone).map fun p =>
        (p.1.chat.cacheKey, shown (processingChats cache chats) p.1) := by
    rw [← List.filterMap_eq_map, List.filterMap_filter]
    refine List.filterMap_congr fun p _ => ?_
    obtain ⟨o, cached⟩ := p
    cases cached <;> rfl
  rw [missing, zip_uncached followed, processingChats_eq followed, List.map_map]
  rfl

/-- The bulk is pointwise exactly when a deleted chat is followed only by cached ones, a migrated
one has its channel and each gets its photo. -/
theorem pointwise_iff : Pointwise cache chats ↔ DeletedFollowed cache chats ∧
    MigratedRight (uncached cache chats) ∧ PhotosKept (uncached cache chats) := by
  have answered : (toTlBulk cache chats).1 = chats.map (fun o => (toTl cache o).1) ↔
      DeletedFollowed cache chats ∧ MigratedRight (uncached cache chats) ∧
        PhotosKept (uncached cache chats) := by
    rw [← shown_right_iff]
    refine (answers_eq_iff fun o => rfl).trans (and_congr_right fun followed => ?_)
    rw [processingChats_eq followed]
  rw [Pointwise, answered]
  refine and_iff_left_of_imp fun right pair => ?_
  obtain ⟨followed, right⟩ := right
  have alike := shown_right_iff.mpr right
  rw [toTlBulk_stored followed, List.mem_map]
  constructor
  · rintro ⟨o, listed, rfl⟩
    refine ⟨o, (List.mem_filter.mp listed).1, stored_iff.mpr ⟨live_of_uncached listed, ?_⟩⟩
    rw [alike o listed]
  · rintro ⟨o, listed, stored⟩
    obtain ⟨⟨live, missing⟩, rfl⟩ := stored_iff.mp stored
    have there : o ∈ uncached cache chats :=
      List.mem_filter.mpr ⟨listed, by rw [live, missing]; rfl⟩
    exact ⟨o, there, by rw [alike o there]⟩

end Db

/-! ### A deleted group before one that is not cached -/

private def gone : Chat := ⟨1, "gone", 1, 1, none, false, 0, 0, true, 1, false⟩

private def there : Chat := ⟨2, "there", 1, 1, none, false, 0, 0, false, 1, false⟩

private def groups : Db := ⟨⟨[gone, there], by decide⟩, .empty, .empty⟩

private def loadedGroups : List groups.ChatObject :=
  [⟨gone, none, none, List.mem_cons_self, nofun, nofun⟩,
    ⟨there, none, none, List.mem_cons_of_mem _ List.mem_cons_self, nofun, nofun⟩]

/-- The second answer is the deleted group once more. -/
theorem answer_misplaced : ¬ ∀ (db : Db) (cache : Db.ChatCache) (chats : List db.ChatObject),
    Db.Pointwise cache chats := by
  intro pointwise
  have answers := (pointwise groups .empty loadedGroups).1
  revert answers
  decide

end Piltover.Chats.Shown
