/- source: piltover/app/handlers/upload.py, piltover/db/models/uploading_file.py,
     piltover/storage/local_file.py
   digest: A file that is saved in parts, by requests in any order, and read again in chunks. -/

import Mathlib.Data.List.Sort
import Piltover.Failure
import Piltover.Foundation.Bytes
import Piltover.Foundation.Interleaved

set_option autoImplicit false

namespace Piltover.Files

open Piltover.Foundation
open Piltover.Foundation.Interleaved
open Piltover.Foundation.Runs

/-- `SaveFilePart`, and `SaveBigFilePart` with the number of all parts. -/
structure SaveFilePart where
  filePart : Int
  bytes : Bytes
  fileTotalParts : Option Int
  deriving DecidableEq, Repr

structure UploadingFilePart where
  partId : Int
  size : Nat
  deriving DecidableEq, Repr

/-- How a request ends: it has saved its part, the part was there with the same size, or it is
refused. -/
inductive Entry
  | saved (r : SaveFilePart)
  | known (r : SaveFilePart)
  | refused (r : SaveFilePart) (failure : Failure)
  deriving DecidableEq, Repr

/-- One file of one user: `total_parts` once there is a row, the rows of the parts, and the files
under `uploading`. `created` is no data of the program: the requests that have created the rows. -/
structure Upload where
  totalParts : Option Int
  parts : List UploadingFilePart
  pieces : Nat → Option Bytes
  created : List SaveFilePart
  log : List Entry

/-- What a request is about to do. -/
inductive Stage
  | reading (r : SaveFilePart)
  | checking (r : SaveFilePart) (lastPartId : Option Int)
  | creating (r : SaveFilePart)
  | touching (r : SaveFilePart)
  | writing (r : SaveFilePart)
  deriving DecidableEq, Repr

namespace SaveFilePart

variable (r : SaveFilePart)

def part : UploadingFilePart := ⟨r.filePart, r.bytes.length⟩

/-- The suffix `.part` of the file; without it for 0 and below. -/
def slot : Nat := r.filePart.toNat

def maybeLast : Bool := r.bytes.length % 1024 != 0 || 524288 % r.bytes.length != 0

end SaveFilePart

namespace Upload

variable (upload : Upload)

def ended (entry : Entry) : Upload × Option Stage :=
  ({ upload with log := upload.log ++ [entry] }, none)

def part (partId : Int) : Option UploadingFilePart :=
  upload.parts.find? fun part => part.partId == partId

/-- The checks before the part is created; true if it is there already. Without bytes the
remainder in `maybe_last` raises. -/
def check (r : SaveFilePart) (lastPartId : Option Int) : Except Failure Bool := do
  let total := upload.totalParts.getD 0
  require (!(decide (0 < total) && r.fileTotalParts.isNone)) (.rpc 400 "FILE_PART_INVALID")
  require (!(decide (0 < total) &&
    (r.fileTotalParts != some total || decide (total ≤ r.filePart)))) (.rpc 400 "FILE_PART_INVALID")
  match upload.part r.filePart with
  | some part =>
    require (part.size == r.bytes.length) (.rpc 400 "FILE_PART_INVALID")
    return true
  | none =>
    require (!r.bytes.isEmpty) .other
    require (!(r.maybeLast && lastPartId.any (r.filePart ≤ ·))) (.rpc 400 "FILE_PART_SIZE_INVALID")
    require (r.bytes.length ≤ 524288) (.rpc 400 "FILE_PART_TOO_BIG")
    return false

/-- The file of the part is opened to be written from its start on, and not emptied. -/
def write (r : SaveFilePart) (bytes : Bytes) : Upload :=
  let old := (upload.pieces r.slot).getD []
  { upload with
    pieces := Function.update upload.pieces r.slot (some (bytes ++ old.drop bytes.length)) }

/-- `save_file_part` gets or creates the row of the file. -/
def begin (r : SaveFilePart) : Upload × Option Stage :=
  ({ upload with totalParts := upload.totalParts <|> some (r.fileTotalParts.getD 0) },
    some (.reading r))

def advance (upload : Upload) : Stage → Upload × Option Stage
  | .reading r => (upload, some (.checking r (upload.parts.map UploadingFilePart.partId).max?))
  | .checking r lastPartId =>
    match upload.check r lastPartId with
    | .error failure => upload.ended (.refused r failure)
    | .ok true => upload.ended (.known r)
    | .ok false => (upload, some (.creating r))
  | .creating r =>
    match upload.part r.filePart with
    | some part =>
      upload.ended (if part.size == r.bytes.length then .known r
        else .refused r (.rpc 400 "FILE_PART_INVALID"))
    | none => ({ upload with
        parts := upload.parts ++ [r.part], created := upload.created ++ [r] }, some (.touching r))
  | .touching r => (upload.write r [], some (.writing r))
  | .writing r => (upload.write r r.bytes).ended (.saved r)

/-- The loop over the parts behind the first one, from the last number and the size so far. -/
def sumParts : Int → Nat → List UploadingFilePart → Except Failure Nat
  | _, size, [] => return size
  | before, size, part :: rest => do
    require (part.partId - 1 == before) (.rpc 400 s!"FILE_PART_{part.partId - 1}_MISSING")
    sumParts part.partId (size + part.size) rest

/-- `finalize_upload`: the size of the file, and its bytes after `finalize_upload_as`. -/
def finalizeUpload (partsNum : Option Nat) : Except Failure (Nat × Bytes) := do
  let parts := upload.parts.insertionSort fun a b => a.partId ≤ b.partId
  let total := upload.totalParts.getD 0
  require (!(decide (0 < total) && total != parts.length)) (.rpc 400 "FILE_PARTS_INVALID")
  let first ← orRaise parts.head? (.rpc 400 "FILE_PARTS_INVALID")
  require (partsNum.all (· == parts.length)) (.rpc 400 "FILE_PARTS_INVALID")
  require (first.partId == 0) (.rpc 400 "FILE_PART_0_MISSING")
  let size ← sumParts first.partId first.size parts.tail
  let pieces ← orRaise ((List.range parts.length).mapM upload.pieces) .other
  return (size, pieces.flatten)

end Upload

/-- The requests to save parts of one file; nothing else happens to it. -/
def saving : Machine Upload SaveFilePart Stage Unit Empty where
  begin := fun upload r _ => upload.begin r
  advance := fun upload t _ => upload.advance t
  disturb := fun _ what => nomatch what

structure GetFile where
  precise : Bool
  offset : Int
  limit : Int
  deriving DecidableEq, Repr

def ONE_MB : Int := 1024 * 1024

def GetFile.checkDiv (request : GetFile) : Int := if request.precise then 1024 else 4096

/-- `get_file` of a document, past the checks of its location. -/
def getFile (size : Nat) (content : Bytes) (request : GetFile) : Except Failure Bytes := do
  require (!(decide (request.limit < 0) || decide (ONE_MB < request.limit))) (.rpc 400 "LIMIT_INVALID")
  require (request.offset / ONE_MB == (request.offset + request.limit - 1) / ONE_MB)
    (.rpc 400 "LIMIT_INVALID")
  require (0 ≤ request.offset) (.rpc 400 "OFFSET_INVALID")
  require (request.offset % request.checkDiv == 0) (.rpc 400 "OFFSET_INVALID")
  require (request.limit % request.checkDiv == 0) (.rpc 400 "LIMIT_INVALID")
  return if (size : Int) ≤ request.offset then []
    else (content.drop request.offset.toNat).take request.limit.toNat

/-- The chunks of a file, one after the other. -/
def readChunks (size : Nat) (content : Bytes) (precise : Bool) (limit n : Nat) :
    Except Failure (List Bytes) :=
  (List.range n).mapM fun i => getFile size content ⟨precise, (i * limit : Nat), limit⟩

/-! ### Saving -/

section Saving

variable {upload : Upload} {r : SaveFilePart}

/-- No part with another number goes to the same file. -/
def Upload.Alone (upload : Upload) (r : SaveFilePart) : Prop :=
  ∀ q ∈ upload.created, q.slot = r.slot → q.filePart = r.filePart

/-- There is no file, or it is empty or has the bytes. -/
def Partly (piece : Option Bytes) (bytes : Bytes) : Prop := piece = none ∨ piece = some [] ∨ piece = some bytes

/-- The rows are those of different parts, and a file with a part of its own is empty or holds the
bytes that were sent for it; it holds them once they are saved. -/
structure Upload.Sound (upload : Upload) : Prop where
  rows : upload.parts = upload.created.map SaveFilePart.part
  once : (upload.created.map SaveFilePart.filePart).Nodup
  used : ∀ slot, upload.pieces slot ≠ none → ∃ r ∈ upload.created, r.slot = slot
  holds : ∀ r ∈ upload.created, upload.Alone r → Partly (upload.pieces r.slot) r.bytes
  saved : ∀ r, .saved r ∈ upload.log →
    r ∈ upload.created ∧ (upload.Alone r → upload.pieces r.slot = some r.bytes)

/-- A request that writes has created its part. -/
def Stage.Fits (upload : Upload) : Stage → Prop
  | .touching r | .writing r => r ∈ upload.created
  | _ => True

/-- A turn keeps what the requests rely on, and leaves one under way. -/
def Keeping (before after : Upload) (next : Option Stage) : Prop :=
  Machine.Keeps Upload.Sound (fun upload t => Stage.Fits upload t) before after next

theorem Upload.Sound.unique (sound : upload.Sound) {q : SaveFilePart} (here : r ∈ upload.created)
    (there : q ∈ upload.created) (same : q.filePart = r.filePart) : q = r :=
  List.inj_on_of_nodup_map sound.once there here same

theorem keeps_same (after : Upload) (sound : upload.Sound) (parts : after.parts = upload.parts)
    (created : after.created = upload.created) (pieces : after.pieces = upload.pieces)
    (log : ∀ r, .saved r ∈ after.log → .saved r ∈ upload.log) {next : Option Stage}
    (own : ∀ t, next = some t → t.Fits upload) :
    Keeping upload after next := by
  have fits : ∀ t, Stage.Fits upload t → t.Fits after := by
    intro t fits
    cases t <;> simp_all only [Stage.Fits]
  refine ⟨⟨?_, ?_, ?_, ?_, ?_⟩, fun t here => fits t (own t here), fits⟩
  · rw [parts, created]
    exact sound.rows
  · rw [created]
    exact sound.once
  · rw [created, pieces]
    exact sound.used
  · unfold Upload.Alone
    rw [created, pieces]
    exact sound.holds
  · unfold Upload.Alone
    rw [created, pieces]
    exact fun r listed => sound.saved r (log r listed)

theorem keeps_ended (sound : upload.Sound) {entry : Entry} (unsaved : ∀ r, entry ≠ .saved r) :
    Keeping upload (upload.ended entry).1 (upload.ended entry).2 := by
  refine keeps_same (upload.ended entry).1 sound rfl rfl rfl (fun r listed => ?_)
    fun t none => (by cases none)
  rcases List.mem_append.mp listed with before | new
  · exact before
  · exact absurd (List.mem_singleton.mp new).symm (unsaved r)

theorem partly_write {piece : Option Bytes} {bytes new : Bytes} (partly : Partly piece bytes)
    (part : new = [] ∨ new = bytes) :
    Partly (some (new ++ (piece.getD []).drop new.length)) bytes ∧
      (piece = some bytes ∨ new = bytes → some (new ++ (piece.getD []).drop new.length) = some bytes) := by
  unfold Partly at *
  rcases part with rfl | rfl <;> rcases partly with rfl | rfl | rfl <;> simp

theorem pieces_write_self (upload : Upload) (r : SaveFilePart) (bytes : Bytes) :
    (upload.write r bytes).pieces r.slot =
      some (bytes ++ ((upload.pieces r.slot).getD []).drop bytes.length) :=
  Function.update_self _ _ _

theorem pieces_write_ne {slot : Nat} (apart : slot ≠ r.slot) (bytes : Bytes) :
    (upload.write r bytes).pieces slot = upload.pieces slot :=
  Function.update_of_ne apart _ _

/-- A request writes to the file of the part that it has created, and leaves nothing else there. -/
theorem keeps_write (sound : upload.Sound) (here : r ∈ upload.created) {bytes : Bytes}
    (part : bytes = [] ∨ bytes = r.bytes) {log : List Entry}
    (saves : ∀ q, Entry.saved q ∈ log → .saved q ∈ upload.log ∨ q = r ∧ bytes = r.bytes)
    {next : Option Stage} (own : ∀ t, next = some t → t.Fits upload) :
    Keeping upload { upload.write r bytes with log := log } next := by
  have piece : ∀ q ∈ upload.created, upload.Alone q →
      Partly ((upload.write r bytes).pieces q.slot) q.bytes ∧
        (upload.pieces q.slot = some q.bytes ∨ q = r ∧ bytes = r.bytes →
          (upload.write r bytes).pieces q.slot = some q.bytes) := by
    intro q there alone
    have partly := sound.holds q there alone
    by_cases same : q.slot = r.slot
    · obtain rfl := sound.unique there here (alone r here same.symm)
      obtain ⟨still, whole⟩ := partly_write partly part
      rw [pieces_write_self]
      exact ⟨still, fun saved => whole (saved.imp_right And.right)⟩
    · rw [pieces_write_ne same]
      exact ⟨partly, fun saved => saved.resolve_right fun other => same (by rw [other.1])⟩
  refine ⟨⟨sound.rows, sound.once, ?_, fun q there alone => (piece q there alone).1, ?_⟩, own,
    fun _ fits => fits⟩
  · intro slot set
    by_cases same : slot = r.slot
    · exact ⟨r, here, same.symm⟩
    · exact sound.used slot (pieces_write_ne same bytes ▸ set)
  · intro q listed
    rcases saves q listed with before | ⟨rfl, whole⟩
    · obtain ⟨there, saved⟩ := sound.saved q before
      exact ⟨there, fun alone => (piece q there alone).2 (.inl (saved alone))⟩
    · exact ⟨here, fun alone => (piece q here alone).2 (.inr ⟨rfl, whole⟩)⟩

theorem keeps_create (sound : upload.Sound) (new : upload.part r.filePart = none) :
    Keeping upload
      { upload with parts := upload.parts ++ [r.part], created := upload.created ++ [r] }
      (some (.touching r)) := by
  have fresh : ∀ q ∈ upload.created, q.filePart ≠ r.filePart := by
    intro q there same
    have listed : q.part ∈ upload.parts := by
      rw [sound.rows]
      exact List.mem_map_of_mem there
    have other := List.find?_eq_none.mp new _ listed
    exact other (beq_iff_eq.mpr same)
  have empty : ∀ q ∈ upload.created ++ [r], (∀ p ∈ upload.created ++ [r], p.slot = q.slot →
      p.filePart = q.filePart) → q = r → upload.pieces q.slot = none := by
    rintro q - alone rfl
    by_contra set
    obtain ⟨p, there, same⟩ := sound.used q.slot set
    exact fresh p there (alone p (List.mem_append_left _ there) same)
  refine ⟨⟨?_, ?_, ?_, ?_, ?_⟩, ?_, ?_⟩
  · rw [sound.rows, List.map_append, List.map_singleton]
  · rw [List.map_append, List.map_singleton, List.nodup_append]
    refine ⟨sound.once, List.nodup_singleton _, ?_⟩
    intro old listed partId last
    obtain ⟨q, there, rfl⟩ := List.mem_map.mp listed
    rw [List.mem_singleton.mp last]
    exact fresh q there
  · intro slot set
    obtain ⟨q, there, same⟩ := sound.used slot set
    exact ⟨q, List.mem_append_left _ there, same⟩
  · intro q there alone
    rcases List.mem_append.mp there with old | last
    · exact sound.holds q old fun p here => alone p (List.mem_append_left _ here)
    · exact .inl (empty q there alone (List.mem_singleton.mp last))
  · intro q listed
    obtain ⟨there, saved⟩ := sound.saved q listed
    exact ⟨List.mem_append_left _ there,
      fun alone => saved fun p here => alone p (List.mem_append_left _ here)⟩
  · intro t same
    cases same
    exact List.mem_append_right _ List.mem_cons_self
  · intro t fits
    cases t <;> first | trivial | exact List.mem_append_left _ fits

theorem sound_of_check {lastPartId : Option Int} (sound : upload.Sound) :
    Keeping upload
      (upload.advance (.checking r lastPartId)).1 (upload.advance (.checking r lastPartId)).2 := by
  rw [Upload.advance]
  split
  · exact keeps_ended sound fun _ other => (by cases other)
  · exact keeps_ended sound fun _ other => (by cases other)
  · exact keeps_same _ sound rfl rfl rfl (fun _ listed => listed) fun t same => (by cases same; trivial)

theorem obeys_saving : Machine.Obeys saving Upload.Sound (fun upload t => t.Fits upload)
    fun _ _ => True where
  begin := fun w _ r _ holds _ =>
    keeps_same (w.shared.begin r).1 holds.inv rfl rfl rfl (fun _ listed => listed) fun t same => by
      cases same
      trivial
  advance := by
    intro w call t input holds under _
    have fits := holds.fits call t under
    cases t with
    | reading r =>
      exact keeps_same _ holds.inv rfl rfl rfl (fun _ listed => listed) fun t same => by
        cases same
        trivial
    | checking r lastPartId => exact sound_of_check holds.inv
    | creating r =>
      simp only [saving, Upload.advance]
      split
      · refine keeps_ended holds.inv fun q => ?_
        split <;> exact fun other => by cases other
      · rename_i new
        exact keeps_create holds.inv new
    | touching r =>
      exact keeps_write holds.inv fits (.inl rfl) (fun _ listed => .inl listed) fun t same => by
        cases same
        exact fits
    | writing r =>
      refine keeps_write holds.inv fits (.inr rfl) (fun q listed => ?_) fun t none => (by cases none)
      rcases List.mem_append.mp listed with before | new
      · exact .inl before
      · cases List.mem_singleton.mp new
        exact .inr ⟨rfl, rfl⟩
  disturb := fun _ what => nomatch what

end Saving

/-! ### Finalizing and reading -/

section Reading

theorem sumParts_eq_ok {parts : List UploadingFilePart} {before : Int} {size total : Nat}
    (summed : Upload.sumParts before size parts = .ok total) :
    parts.map UploadingFilePart.partId =
        (List.range parts.length).map (fun i : Nat => before + 1 + (i : Int)) ∧
      total = size + (parts.map UploadingFilePart.size).sum := by
  induction parts generalizing before size with
  | nil =>
    cases summed
    exact ⟨rfl, rfl⟩
  | cons part rest ih =>
    rw [Upload.sumParts, check_bind_eq_ok, require_eq_ok, beq_iff_eq] at summed
    obtain ⟨next, summed⟩ := summed
    obtain ⟨ids, sum⟩ := ih summed
    have here : part.partId = before + 1 := by omega
    refine ⟨?_, ?_⟩
    · rw [List.map_cons, ids, List.length_cons, List.range_succ_eq_map, List.map_cons, List.map_map]
      refine congrArg₂ List.cons (by simpa using here) (List.map_congr_left fun i _ => ?_)
      simp only [Function.comp_apply, Nat.succ_eq_add_one]
      omega
    · rw [sum, List.map_cons, List.sum_cons]
      omega

/-- The chunks of a list are the list. -/
theorem flatten_chunks (content : Bytes) (limit n : Nat) :
    ((List.range n).map fun i => (content.drop (i * limit)).take limit).flatten =
      content.take (n * limit) := by
  induction n with
  | zero => simp
  | succ n ih =>
    rw [List.range_succ, List.map_append, List.flatten_append, ih, Nat.succ_mul, List.take_add]
    simp

theorem getFile_chunk (content : Bytes) {precise : Bool} {limit : Nat} (positive : 0 < limit)
    (megabyte : (limit : Int) ∣ ONE_MB) (unit : (GetFile.mk precise 0 0).checkDiv ∣ limit) (i : Nat) :
    getFile content.length content ⟨precise, (i * limit : Nat), limit⟩ =
      .ok ((content.drop (i * limit)).take limit) := by
  obtain ⟨m, whole⟩ := megabyte
  have bound : (0 : Int) < limit := Int.natCast_pos.mpr positive
  have place : ∀ j : Int, 0 ≤ j → j < limit → ((i * limit : Nat) + j) / ONE_MB = i / m := by
    intro j low high
    have first : ((i * limit : Nat) + j) / (limit : Int) = i := by
      rw [Int.ediv_eq_iff_of_pos bound, Int.natCast_mul]
      omega
    rw [whole, Int.ediv_mul_of_nonneg (Int.le_of_lt bound), first]
  have same : ((i * limit : Nat) : Int) / ONE_MB = ((i * limit : Nat) + (limit : Int) - 1) / ONE_MB := by
    have start := place 0 (Int.le_refl 0) bound
    rw [Int.add_zero] at start
    rw [start, Int.add_sub_assoc, place _ (by omega) (by omega)]
  have units : ((i * limit : Nat) : Int) % (GetFile.mk precise 0 0).checkDiv = 0 := by
    rw [Int.natCast_mul]
    exact Int.emod_eq_zero_of_dvd (Int.dvd_mul_of_dvd_right unit)
  have small : (limit : Int) ≤ ONE_MB := Int.le_of_dvd (by decide) ⟨m, whole⟩
  have checks : getFile content.length content ⟨precise, (i * limit : Nat), limit⟩ =
      .ok (if (content.length : Int) ≤ (i * limit : Nat) then []
        else (content.drop (i * limit)).take limit) := by
    have limited : (!(decide ((limit : Int) < 0) || decide (ONE_MB < limit))) = true := by
      simp only [Bool.not_eq_true', Bool.or_eq_false_iff, decide_eq_false_iff_not]
      omega
    have unit' : (limit : Int) % (GetFile.mk precise 0 0).checkDiv = 0 := Int.emod_eq_zero_of_dvd unit
    simp only [getFile, GetFile.checkDiv] at units unit' ⊢
    simp only [limited, same, units, unit', beq_self_eq_true, Int.natCast_nonneg, decide_true,
      Int.toNat_natCast]
    rfl
  rw [checks]
  split
  · rw [List.drop_of_length_le (by omega), List.take_nil]
  · rfl

/-- A chunk may be of every size that divides a megabyte and is made of whole units. -/
theorem readChunks_eq_ok (content : Bytes) {precise : Bool} {limit n : Nat} (positive : 0 < limit)
    (megabyte : (limit : Int) ∣ ONE_MB) (unit : (GetFile.mk precise 0 0).checkDiv ∣ limit)
    (enough : content.length ≤ n * limit) :
    ∃ chunks, readChunks content.length content precise limit n = .ok chunks ∧
      chunks.flatten = content := by
  refine ⟨_, mapM_eq_ok_map fun i _ => getFile_chunk content positive megabyte unit i, ?_⟩
  rw [flatten_chunks, List.take_of_length_le enough]

theorem mapM_map_eq_some {α β γ : Type} {f : β → Option γ} {g : α → β} {h : α → γ} {l : List α}
    (each : ∀ a ∈ l, f (g a) = some (h a)) : (l.map g).mapM f = some (l.map h) := by
  induction l with
  | nil => rfl
  | cons a l ih =>
    rw [List.map_cons, List.mapM_cons, each a List.mem_cons_self,
      ih fun b listed => each b (List.mem_cons_of_mem a listed)]
    rfl

/-- What can be finalized once every part that was created is saved is what was sent, in order. -/
theorem Upload.Sound.finalized {upload : Upload} (sound : upload.Sound) {partsNum : Option Nat}
    {size : Nat} {content : Bytes} (saved : ∀ r ∈ upload.created, .saved r ∈ upload.log)
    (done : upload.finalizeUpload partsNum = .ok (size, content)) :
    ∃ sent : List SaveFilePart, sent.Perm upload.created ∧
      sent.map SaveFilePart.filePart = (List.range sent.length).map (fun i : Nat => (i : Int)) ∧
      content = sent.flatMap SaveFilePart.bytes ∧ size = content.length := by
  let sent := upload.created.insertionSort fun a b => a.filePart ≤ b.filePart
  have perm : sent.Perm upload.created := List.perm_insertionSort _ _
  have parts : upload.parts.insertionSort (fun a b => a.partId ≤ b.partId) =
      sent.map SaveFilePart.part := by
    rw [sound.rows]
    exact (List.map_insertionSort _ _ SaveFilePart.part _ fun _ _ _ _ => Iff.rfl).symm
  simp only [Upload.finalizeUpload, parts, check_bind_eq_ok, orRaise_bind_eq_ok, require_eq_ok] at done
  obtain ⟨-, first, head, -, start, done⟩ := done
  obtain ⟨total, summed, done⟩ := (bind_eq_ok _).mp done
  obtain ⟨pieces, found, done⟩ := orRaise_bind_eq_ok.mp done
  cases done
  obtain ⟨r, rest, whole⟩ : ∃ r rest, sent = r :: rest := by
    refine List.exists_cons_of_ne_nil fun empty => ?_
    rw [empty] at head
    cases head
  rw [whole] at head summed
  cases head
  obtain ⟨ids, sum⟩ := sumParts_eq_ok summed
  have zero : r.filePart = 0 := beq_iff_eq.mp start
  have numbers : sent.map SaveFilePart.filePart =
      (List.range sent.length).map (fun i : Nat => (i : Int)) := by
    simp only [List.map_cons, List.tail_cons, List.map_map, List.length_map] at ids
    rw [whole, List.map_cons, List.length_cons, List.range_succ_eq_map, List.map_cons, List.map_map,
      zero]
    refine congrArg _ (Eq.trans ids (List.map_congr_left fun i _ => ?_))
    show r.filePart + 1 + (i : Int) = (i + 1 : Nat)
    omega
  have nonneg : ∀ q ∈ upload.created, 0 ≤ q.filePart := by
    intro q there
    have listed := List.mem_map_of_mem (f := SaveFilePart.filePart) (perm.mem_iff.mpr there)
    rw [numbers] at listed
    obtain ⟨i, -, same⟩ := List.mem_map.mp listed
    omega
  have held : ∀ q ∈ sent, upload.pieces q.slot = some q.bytes := by
    intro q listed
    have there := perm.mem_iff.mp listed
    refine (sound.saved q (saved q there)).2 fun p here same => ?_
    have left := nonneg p here
    have right := nonneg q there
    simp only [SaveFilePart.slot] at same
    omega
  have slots : List.range (sent.map SaveFilePart.part).length = sent.map SaveFilePart.slot := by
    have toNat := congrArg (List.map Int.toNat) numbers
    rw [List.map_map, List.map_map] at toNat
    rw [List.length_map]
    exact (toNat.trans (List.map_id _)).symm
  rw [slots, mapM_map_eq_some held] at found
  cases found
  refine ⟨sent, perm, numbers, List.flatMap_def.symm, ?_⟩
  rw [sum, List.length_flatten, whole]
  simp [SaveFilePart.part, Function.comp_def]

end Reading

/-- Nothing has been sent yet. -/
def empty : World Upload Stage := ⟨⟨none, [], fun _ => none, [], []⟩, fun _ => none⟩

/-- In every order of the turns of requests to save parts, once every part that was created is
saved, what can be finalized and is read in chunks is what the requests have sent, in the order of
the parts. -/
theorem read_eq_sent {w : World Upload Stage} {es : List (Event SaveFilePart Unit Empty)}
    (run : runFrom saving.step empty es = some w)
    (saved : ∀ r ∈ w.shared.created, .saved r ∈ w.shared.log) {partsNum : Option Nat} {size : Nat}
    {content : Bytes} (done : w.shared.finalizeUpload partsNum = .ok (size, content)) :
    ∃ sent : List SaveFilePart, sent.Perm w.shared.created ∧
      sent.map SaveFilePart.filePart = (List.range sent.length).map (fun i : Nat => (i : Int)) ∧
      size = content.length ∧
      ∀ (precise : Bool) (limit n : Nat), 0 < limit → (limit : Int) ∣ ONE_MB →
        (GetFile.mk precise 0 0).checkDiv ∣ limit → size ≤ n * limit →
        ∃ chunks, readChunks size content precise limit n = .ok chunks ∧
          chunks.flatten = sent.flatMap SaveFilePart.bytes := by
  have start : Machine.Holds Upload.Sound (fun upload t => Stage.Fits upload t) empty :=
    ⟨⟨rfl, List.nodup_nil, fun _ set => absurd rfl set, nofun, nofun⟩, nofun⟩
  have holds := run_invariant_all
    (fun _ _ _ holds happens => Machine.holds_step obeys_saving holds trivial happens) start run
  obtain ⟨sent, perm, numbers, same, rfl⟩ := holds.inv.finalized saved done
  refine ⟨sent, perm, numbers, rfl, fun precise limit n positive megabyte unit enough => ?_⟩
  rw [← same]
  exact readChunks_eq_ok content positive megabyte unit enough

/-- Two parts whose requests take turns. -/
private def twoParts : List (Event SaveFilePart Unit Empty) :=
  [.start 0 ⟨0, [1, 2, 3], none⟩ (), .start 1 ⟨1, [4, 5], none⟩ (), .go 0 (), .go 1 (), .go 0 (),
    .go 1 (), .go 1 (), .go 0 (), .go 1 (), .go 0 (), .go 0 (), .go 1 ()]

theorem read_two_parts :
    ∃ w, runFrom saving.step empty twoParts = some w ∧
      ∃ sent : List SaveFilePart, sent.Perm w.shared.created ∧
        ∃ chunks, readChunks 5 [1, 2, 3, 4, 5] true 1024 1 = .ok chunks ∧
          chunks.flatten = sent.flatMap SaveFilePart.bytes := by
  have goes : (runFrom saving.step empty twoParts).any (fun w =>
      decide ((∀ r ∈ w.shared.created, Entry.saved r ∈ w.shared.log) ∧
        w.shared.finalizeUpload none = .ok (5, [1, 2, 3, 4, 5]))) = true := by decide +kernel
  obtain ⟨w, run, checked⟩ := Option.any_eq_true _ _ |>.mp goes
  obtain ⟨saved, done⟩ := of_decide_eq_true checked
  obtain ⟨sent, perm, -, -, read⟩ := read_eq_sent run saved done
  exact ⟨w, run, sent, perm, read true 1024 1 (by decide) (by decide) (by decide) (by decide)⟩

end Piltover.Files
