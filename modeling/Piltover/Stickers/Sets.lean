/- source: piltover/app/handlers/stickers.py, piltover/db/models/stickerset.py,
     piltover/db/models/file.py, piltover/app/utils/utils.py
   digest: Sticker sets with their files and hashes, and the requests that change them. -/

import Mathlib.Data.Int.Bitwise
import Mathlib.Data.List.Infix
import Mathlib.Data.List.Sort
import Piltover.Failure
import Piltover.Foundation.Bytes
import Piltover.Foundation.Table

set_option autoImplicit false

namespace Piltover.Stickers

open Piltover.Foundation

inductive FileType
  | document
  | sticker
  | emoji
  | other
  deriving DecidableEq, Repr

inductive StickersetType
  | static
  | animated
  | video
  deriving DecidableEq, Repr

abbrev MaskCoords := Bytes

structure File where
  id : Nat
  mimeType : String
  type : FileType
  stickersetId : Option Nat
  stickerPos : Option Int
  stickerAlt : Option String
  isMask : Bool
  maskCoords : Option MaskCoords
  deriving DecidableEq, Repr

structure Stickerset where
  id : Nat
  title : String
  shortName : Option String
  ownerId : Option Nat
  officialType : Option Nat
  hash : Int
  type : StickersetType
  deleted : Bool
  emoji : Bool
  masks : Bool
  stickersCount : Int
  deriving DecidableEq, Repr

/-- The files and the sets, the files that are thumbs of sets, and who has installed which. -/
structure Db where
  files : Table File.id
  sets : Table Stickerset.id
  thumbs : List (Nat × Nat)
  installed : List (Nat × Nat)

structure InputDocument where
  id : Nat
  accessHash : Int
  fileReference : Bytes
  deriving DecidableEq, Repr

structure InputSticker where
  document : InputDocument
  emoji : String
  maskCoords : Option MaskCoords
  deriving DecidableEq, Repr

inductive InputStickerset
  | empty
  | id (id : Nat) (accessHash : Int)
  | shortName (name : String)
  | official (type : Nat)
  deriving DecidableEq, Repr

/-- Which of the checks a file has to pass. -/
inductive MediaCheck
  | picture (isEmoji : Bool)
  | video (isEmoji : Bool)
  | animation
  deriving DecidableEq, Repr

/-- What is outside of the handlers: signatures of references and access hashes, the contents of
files, emoji, and MD5. -/
structure Env where
  signed : Nat → InputDocument → Bool
  constant : InputDocument → Bool
  hasKeys : InputDocument → File → Bool
  setSigned : Nat → Nat → Int → Bool
  media : MediaCheck → File → Except Failure Unit
  resize : File → Except Failure Unit
  purelyEmoji : String → Bool
  md5 : Bytes → Bytes

/-! ### The hash of a set -/

/-- What is hashed; a field without a value only shifts what came before it. -/
inductive HashItem
  | int (n : Int)
  | str (s : String)
  | none
  deriving DecidableEq, Repr

/-- `Long.read_bytes` of the first eight bytes. -/
def readLong (b : Bytes) : Int := (Bytes.toNat (b.take 8).reverse : Int).bmod (2 ^ 64)

/-- The shifts between two items. -/
def mixHash (h : Int) : Int :=
  let h := h.xor (h >>> (21 : Nat))
  let h := h.xor (h * 2 ^ 35)
  h.xor (h >>> (4 : Nat))

def addToHash (md5 : Bytes → Bytes) (h : Int) : HashItem → Int
  | .int n => mixHash h + n
  | .str s => mixHash h + readLong (md5 s.toUTF8.toList)
  | .none => mixHash h

/-- `telegram_hash` of 32 bits. -/
def telegramHash (md5 : Bytes → Bytes) (items : List HashItem) : Int :=
  (items.foldl (addToHash md5) 0).bmod (2 ^ 32)

namespace File

variable (f : File)

def inSet (setId : Nat) : Bool := f.stickersetId == some setId

/-- The position is there and satisfies the check; SQL compares `NULL` with nothing. -/
def posIs (check : Int → Bool) : Bool := f.stickerPos.any check

/-- `order_by("sticker_pos")`, where `NULL` comes first. -/
def Before (f g : File) : Prop :=
  f.stickerPos.all fun p => g.stickerPos.any fun q => decide (p ≤ q)

instance : DecidableRel Before := fun f g =>
  inferInstanceAs (Decidable ((f.stickerPos.all fun p => g.stickerPos.any fun q => decide (p ≤ q)) =
    true))

def hashItems : List HashItem :=
  [.int f.id, f.stickerPos.elim .none .int, f.stickerAlt.elim .none .str]

/-- `F("sticker_pos") + by`. -/
def shift (amount : Int) : File := { f with stickerPos := f.stickerPos.map (· + amount) }

end File

def Stickerset.genForHash (set : Stickerset) (stickers : List File) : List HashItem :=
  .int set.id :: .str set.title :: stickers.flatMap File.hashItems

namespace Db

variable (db : Db)

def filesOf (setId : Nat) : List File := db.files.rows.filter fun f => f.inSet setId

/-- `documents_query`: the files of a set by their positions. -/
def documents (setId : Nat) : List File := (db.filesOf setId).insertionSort File.Before

def hashOf (md5 : Bytes → Bytes) (set : Stickerset) : Int :=
  telegramHash md5 (set.genForHash (db.documents set.id))

/-- Rows of a set are written. -/
def saveSet (setId : Nat) (change : Stickerset → Stickerset) (keeps : ∀ s, (change s).id = s.id) :
    Db :=
  { db with sets := db.sets.modify (fun s => s.id == setId) change keeps }

/-- `get_or_none`. -/
def getSet (check : Stickerset → Bool) : Option Stickerset :=
  match db.sets.rows.filter check with
  | [s] => some s
  | _ => none

/-- `Stickerset.from_input`. -/
def setFromInput (env : Env) (userId : Nat) : InputStickerset → Option Stickerset
  | .empty => none
  | .id id accessHash =>
    if env.setSigned userId id accessHash then db.getSet fun s => s.id == id && !s.deleted
    else none
  | .shortName name => db.getSet fun s => s.shortName == some name && !s.deleted
  | .official type => db.getSet fun s => s.officialType == some type && !s.deleted

/-- `File.from_input`: the file for those who hold its keys. -/
def fileFromInput (env : Env) (userId : Nat) (doc : InputDocument) (check : File → Bool) :
    Option File :=
  (db.files.get doc.id).filter fun f =>
    check f && if env.constant doc then env.hasKeys doc f else env.signed userId doc

def getStickerWithSet (env : Env) (userId : Nat) (sticker : InputDocument) :
    Except Failure (File × Stickerset) :=
  orRaise (do
    let file ← db.fileFromInput env userId sticker fun f => f.type == .sticker
    let set ← file.stickersetId.bind db.sets.get
    if set.ownerId == some userId then some (file, set) else none) (.rpc 400 "STICKER_INVALID")

end Db

/-! ### Files that become stickers -/

def allowedMimes : List String :=
  ["image/png", "image/webp", "video/webm", "application/x-tgsticker"]

def setTypesToMimes : StickersetType → List String
  | .static => ["image/png", "image/webp"]
  | .animated => ["application/x-tgsticker"]
  | .video => ["video/webm"]

def typeOfMime (mimeType : String) : Option StickersetType :=
  if (setTypesToMimes .static).contains mimeType then some .static
  else if (setTypesToMimes .video).contains mimeType then some .video
  else if (setTypesToMimes .animated).contains mimeType then some .animated
  else none

def isSpace (c : Char) : Bool :=
  [0x09, 0x0a, 0x0b, 0x0c, 0x0d, 0x1c, 0x1d, 0x1e, 0x1f, 0x20, 0x85, 0xa0, 0x1680, 0x2000, 0x2001,
    0x2002, 0x2003, 0x2004, 0x2005, 0x2006, 0x2007, 0x2008, 0x2009, 0x200a, 0x2028, 0x2029, 0x202f,
    0x205f, 0x3000].contains c.toNat

def strip (s : String) : String :=
  String.ofList ((s.toList.dropWhile isSpace).reverse.dropWhile isSpace).reverse

namespace Env

variable (env : Env)

/-- A constant reference never gets through here: all its bytes are taken for a UUID. -/
def checkReference (userId : Nat) (doc : InputDocument) : Except Failure Unit := do
  require (!env.constant doc) .other
  require (env.signed userId doc) (.rpc 400 "STICKER_FILE_INVALID")

def checkInput (userId : Nat) (input : InputSticker) : Except Failure Unit := do
  let emoji := strip input.emoji
  require (!emoji.isEmpty && env.purelyEmoji emoji) (.rpc 400 "STICKER_EMOJI_INVALID")
  env.checkReference userId input.document

/-- The checks of a file by its kind. -/
def validate (file : File) (isEmoji emojiVideo : Bool) : Except Failure Unit :=
  match typeOfMime file.mimeType with
  | some .static => env.media (.picture isEmoji) file
  | some .video => env.media (.video emojiVideo) file
  | some .animated => env.media .animation file
  | none => .error (.rpc 400 "STICKER_FILE_INVALID")

def getStickerFile (db : Db) (isEmoji : Bool) (setType : Option StickersetType)
    (input : InputSticker) : Except Failure (File × StickersetType) := do
  let file ← orRaise ((db.files.get input.document.id).filter fun f =>
    (f.type == .sticker || f.type == .document) && allowedMimes.contains f.mimeType &&
      f.stickersetId.isNone) (.rpc 400 "STICKER_FILE_INVALID")
  let type ← orRaise (setType <|> typeOfMime file.mimeType) (.rpc 400 "STICKER_FILE_INVALID")
  require ((setTypesToMimes type).contains file.mimeType) (.rpc 400 "STICKER_FILE_INVALID")
  env.validate file isEmoji isEmoji
  .ok (file, type)

def getFiles (db : Db) (isEmoji : Bool) :
    Option StickersetType → List InputSticker → Except Failure (List File × Option StickersetType)
  | setType, [] => .ok ([], setType)
  | setType, input :: rest => do
      let (file, type) ← env.getStickerFile db isEmoji setType input
      let (files, last) ← getFiles db isEmoji (some type) rest
      .ok (file :: files, last)

def getStickerFiles (db : Db) (userId : Nat) (inputs : List InputSticker)
    (setType : Option StickersetType) (isEmoji : Bool) :
    Except Failure (List File × Option StickersetType) := do
  let _ ← inputs.mapM (env.checkInput userId)
  env.getFiles db isEmoji setType inputs

def getStickerThumb (db : Db) (userId : Nat) (doc : InputDocument) (setType : StickersetType)
    (isEmoji : Bool) : Except Failure File := do
  let file ← orRaise (db.fileFromInput env userId doc fun f =>
    f.type == .document && allowedMimes.contains f.mimeType && f.stickersetId.isNone)
    (.rpc 400 "STICKER_FILE_INVALID")
  require ((setTypesToMimes setType).contains file.mimeType) (.rpc 400 "STICKER_THUMB_PNG_NOPNG")
  env.validate file isEmoji true
  .ok file

/-- The columns of a sticker are long enough for its values. -/
def fitsColumns (alt : Option String) (coords : Option MaskCoords) : Bool :=
  alt.all (fun s => decide (s.length ≤ 32)) &&
    coords.all fun c => decide ((c.length * 5 + 3) / 4 ≤ 36)

def isStatic (file : File) : Bool := file.mimeType.startsWith "image/"

/-- Pictures are made smaller. -/
def resizeStatic (file : File) : Except Failure Unit :=
  if isStatic file then env.resize file else .ok ()

/-- `make_sticker_from_file`, with the identifier that the row gets; `sticker_mask`, which is set
there, is no column. -/
def makeStickerFromFile (id : Nat) (file : File) (set : Stickerset) (pos : Option Int)
    (input : InputSticker) (mask : Bool) : Except Failure File := do
  env.resizeStatic file
  let alt := strip input.emoji
  let coords := if mask && !set.emoji then input.maskCoords else none
  require (fitsColumns (some alt) coords) .other
  .ok {
    id
    mimeType := if isStatic file then "image/webp" else file.mimeType
    type := if set.emoji then .emoji else .sticker
    stickersetId := some set.id
    stickerPos := pos
    stickerAlt := some alt
    isMask := false
    maskCoords := coords }

end Env

/-! ### The requests -/

/-- Whether the response is cached, and what it needs of the set. -/
structure Cached where
  messages : Bool
  info : Bool
  deriving DecidableEq, Repr

/-- `to_tl_messages`: where nothing is cached the thumb of the set must have been fetched. -/
def toTlMessages (cached : Cached) (thumbFetched : Bool) : Except Failure Unit :=
  require (cached.messages || cached.info || thumbFetched) .other

structure CreateStickerset where
  title : String
  shortName : String
  masks : Bool
  emojis : Bool
  stickers : List InputSticker
  thumb : Option InputDocument
  deriving DecidableEq, Repr

/-- `str.lower`, as far as it gives letters of ASCII. -/
def lowerChar (c : Char) : Char := if c.toNat = 0x212a then 'k' else c.toLower

def nameChar (c : Char) : Bool := c.isDigit || c.isLower || c == '_'

namespace Db

variable (env : Env) (db : Db) (cached : Cached) (userId : Nat)

/-- `check_stickerset_short_name`. -/
def checkShortName (shortName failurePrefix : String) : Except Failure Unit := do
  let name := shortName.toList.map lowerChar
  require (!shortName.isEmpty && decide (shortName.length ≤ 64))
    (.rpc 400 (failurePrefix ++ "SHORT_NAME_INVALID"))
  require (name.head?.any Char.isLower) (.rpc 400 (failurePrefix ++ "SHORT_NAME_INVALID"))
  require (name.all nameChar && !decide (['_', '_'] <:+: name))
    (.rpc 400 (failurePrefix ++ "SHORT_NAME_INVALID"))
  require (!db.sets.rows.any fun s => s.shortName == some shortName)
    (.rpc 400 (failurePrefix ++ "SHORT_NAME_OCCUPIED"))

def createFile (file : Nat → File) : Db :=
  { db with files := db.files.insert (file db.files.nextKey) }

def createStickers (set : Stickerset) (mask : Bool) :
    Nat → List (File × InputSticker) → Db → Except Failure Db
  | _, [], db => .ok db
  | pos, (file, input) :: rest, db => do
      let sticker ← env.makeStickerFromFile db.files.nextKey file set (some pos) input mask
      createStickers set mask (pos + 1) rest (db.createFile fun _ => sticker)

def createThumb (set : Stickerset) (isEmoji : Bool) (thumb : Option InputDocument) :
    Except Failure Db :=
  match thumb with
  | none => .ok db
  | some doc => do
      let file ← env.getStickerThumb db userId doc set.type isEmoji
      let made := db.createFile fun id => ⟨id, file.mimeType, .document, none, none, none, false, none⟩
      .ok { made with thumbs := made.thumbs ++ [(set.id, db.files.nextKey)] }

/-- `hash`, `stickers_count` and what else is written at the end of a request. -/
def refresh (set : Stickerset) (change : Stickerset → Stickerset)
    (keeps : ∀ s, (change s).id = s.id) : Db :=
  db.saveSet set.id (fun s => { change s with hash := db.hashOf env.md5 set }) keeps

def createStickerset (r : CreateStickerset) : Except Failure Db := do
  require (!r.title.isEmpty && decide (r.title.length ≤ 64)) (.rpc 400 "PACK_TITLE_INVALID")
  db.checkShortName r.shortName "PACK_"
  require (!r.stickers.isEmpty) (.rpc 400 "STICKERS_EMPTY")
  require (decide (r.stickers.length ≤ 120)) (.rpc 400 "STICKERS_TOO_MUCH")
  let (files, setType) ← env.getStickerFiles db userId r.stickers none r.emojis
  let type ← orRaise setType .other
  let set : Stickerset := {
    id := db.sets.nextKey
    title := r.title
    shortName := some r.shortName
    ownerId := none
    officialType := none
    hash := 0
    type
    deleted := false
    emoji := r.emojis
    masks := false
    stickersCount := 0 }
  let db ← createThumb env { db with sets := db.sets.insert set } userId set r.emojis r.thumb
  let db ← createStickers env set r.masks 0 (files.zip r.stickers) db
  let db := db.refresh env set (fun s =>
    { s with ownerId := some userId, stickersCount := (db.documents set.id).length }) fun _ => rfl
  toTlMessages cached true
  .ok { db with installed := db.installed ++ [(set.id, userId)] }

def shiftStickers (setId : Nat) (check : Int → Bool) (amount : Int) : Db :=
  { db with
    files := db.files.modify (fun f => f.inSet setId && f.posIs check) (File.shift · amount)
      fun _ => rfl }

/-- Columns of a file are written. -/
def saveFile (fileId : Nat) (change : File → File) (keeps : ∀ f, (change f).id = f.id) : Db :=
  { db with files := db.files.modify (fun f => f.id == fileId) change keeps }

def changeStickerPosition (sticker : InputDocument) (position : Int) : Except Failure Db := do
  let (file, set) ← db.getStickerWithSet env userId sticker
  let minPos := 0
  let maxPos : Int := (db.documents set.id).length - 1
  let newPos := max minPos (min maxPos position)
  let oldPos := position
  if oldPos = newPos then do
    toTlMessages cached false
    .ok db
  else do
    let shifted :=
      if oldPos < newPos then
        db.shiftStickers set.id (fun p => decide (oldPos < p) && decide (p ≤ newPos)) (-1)
      else db.shiftStickers set.id (fun p => decide (newPos ≤ p) && decide (p < oldPos)) 1
    let moved := shifted.saveFile file.id (fun f => { f with stickerPos := some newPos }) fun _ => rfl
    toTlMessages cached false
    .ok (moved.refresh env set id fun _ => rfl)

def renameStickerset (input : InputStickerset) (title : String) : Except Failure Db := do
  let set ← orRaise ((db.setFromInput env userId input).filter fun s => s.ownerId == some userId)
    (.rpc 400 "STICKERSET_INVALID")
  require (!title.isEmpty && decide (title.length ≤ 64)) (.rpc 400 "STICKERSET_INVALID")
  toTlMessages cached true
  .ok (db.refresh env { set with title } (fun s => { s with title }) fun _ => rfl)

def maskCoordsTl (file : File) : Option MaskCoords := if file.isMask then file.maskCoords else none

def changeSticker (sticker : InputDocument) (emoji : Option String)
    (maskCoords : Option MaskCoords) : Except Failure Db := do
  let (file, set) ← db.getStickerWithSet env userId sticker
  let newAlt := emoji.isSome && emoji != file.stickerAlt
  let newCoords := maskCoords.isSome && maskCoords != maskCoordsTl file && set.masks && file.isMask
  if !newAlt && !newCoords then do
    toTlMessages cached false
    .ok db
  else do
    let alt := if newAlt then emoji else file.stickerAlt
    let coords := if newCoords then maskCoords else file.maskCoords
    require (Env.fitsColumns (if newAlt then emoji else none) (if newCoords then maskCoords else none))
      .other
    let saved := db.saveFile file.id (fun f => { f with stickerAlt := alt, maskCoords := coords })
      fun _ => rfl
    toTlMessages cached false
    .ok (saved.refresh env set id fun _ => rfl)

def addStickerToSet (input : InputStickerset) (sticker : InputSticker) : Except Failure Db := do
  let set ← orRaise ((db.setFromInput env userId input).filter fun s => s.ownerId == some userId)
    (.rpc 406 "STICKERSET_INVALID")
  let (files, _) ← env.getStickerFiles db userId [sticker] (some set.type) set.emoji
  let file ← orRaise files.head? .other
  let count := (db.filesOf set.id).length
  require (decide (count < 120)) (.rpc 400 "STICKERS_TOO_MUCH")
  let made ← env.makeStickerFromFile db.files.nextKey file set (some count) sticker set.masks
  toTlMessages cached true
  .ok ((db.createFile fun _ => made).refresh env set
    (fun s => { s with stickersCount := s.stickersCount + 1 }) fun _ => rfl)

def replaceSticker (sticker : InputDocument) (newSticker : InputSticker) : Except Failure Db := do
  let (oldFile, set) ← db.getStickerWithSet env userId sticker
  let (files, _) ← env.getStickerFiles db userId [newSticker] (some set.type) set.emoji
  let file ← orRaise files.head? .other
  -- the row in memory loses its position before the new one is made from it
  let oldFile := { oldFile with stickersetId := none, stickerPos := none }
  let detached := db.saveFile oldFile.id
    (fun f => { f with stickersetId := oldFile.stickersetId, stickerPos := oldFile.stickerPos })
    fun _ => rfl
  let made ← env.makeStickerFromFile detached.files.nextKey file set oldFile.stickerPos newSticker
    set.masks
  toTlMessages cached false
  .ok ((detached.createFile fun _ => made).refresh env set id fun _ => rfl)

def removeStickerFromSet (sticker : InputDocument) : Except Failure Db := do
  let (file, set) ← db.getStickerWithSet env userId sticker
  let deleted := { db with files := db.files.remove fun f => f.id == file.id }
  let shifted := deleted.shiftStickers set.id (fun p => file.posIs fun q => decide (q < p)) (-1)
  toTlMessages cached false
  .ok (shifted.refresh env set (fun s => { s with stickersCount := s.stickersCount - 1 }) fun _ => rfl)

end Db

inductive Request
  | create (r : CreateStickerset)
  | add (set : InputStickerset) (sticker : InputSticker)
  | replace (sticker : InputDocument) (newSticker : InputSticker)
  | remove (sticker : InputDocument)
  | changePosition (sticker : InputDocument) (position : Int)
  | change (sticker : InputDocument) (emoji : Option String) (maskCoords : Option MaskCoords)
  | rename (set : InputStickerset) (title : String)
  deriving DecidableEq, Repr

/-- A request of a user, with what the cache has when it comes to the response. -/
structure Event where
  userId : Nat
  cached : Cached
  request : Request
  deriving DecidableEq, Repr

def Event.run (env : Env) (db : Db) (e : Event) : Except Failure Db :=
  match e.request with
  | .create r => db.createStickerset env e.cached e.userId r
  | .add set sticker => db.addStickerToSet env e.cached e.userId set sticker
  | .replace sticker newSticker => db.replaceSticker env e.cached e.userId sticker newSticker
  | .remove sticker => db.removeStickerFromSet env e.cached e.userId sticker
  | .changePosition sticker position =>
    db.changeStickerPosition env e.cached e.userId sticker position
  | .change sticker emoji maskCoords => db.changeSticker env e.cached e.userId sticker emoji maskCoords
  | .rename set title => db.renameStickerset env e.cached e.userId set title

/-- A successful request. -/
def step (env : Env) (db : Db) (e : Event) : Option Db := (e.run env db).toOption

end Piltover.Stickers
