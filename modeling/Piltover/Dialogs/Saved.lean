/- source: piltover/app/handlers/messages/dialogs.py,
     piltover/app/handlers/messages/saved_dialogs.py, piltover/db/models/saved_dialog.py
   digest: The lists of saved dialogs, which are made from the rows of the ordinary dialogs. -/

import Piltover.Dialogs.Listing
import Piltover.Foundation.OrderedDict

set_option autoImplicit false

namespace Piltover.Dialogs.Saved

open Piltover.Foundation
open Piltover.Foundation.OrderedDict
open Piltover.Dialogs.Listing (Peer DialogRow Offsets ownerFor effectiveLimit)

/-- A row of either model of dialogs with its row of `Peer`: all that the lists read of it. -/
structure DialogT extends DialogBase where
  id : Nat
  peerRow : Peer
  deriving DecidableEq, Repr

def ofDialog (d : DialogRow) : DialogT := ⟨d.toDialogBase, d.id, d.peerRow⟩

/-- A message with the peer that holds it and `content.fwd_header.saved_peer_id`. -/
structure MessageRow where
  id : Nat
  peerId : Nat
  savedPeer : Option Nat
  deriving DecidableEq, Repr

/-- The row of `Peer` is that of the peer which the dialog names. -/
def Loaded (peers : Table Peer.key) (d : DialogT) : Prop :=
  peers.get (ownerFor d.ownerId d.peer, d.peer) = some d.peerRow

structure Db extends Listing.Db where
  savedDialogs : Table DialogT.id
  messages : Table MessageRow.id
  peerIds : (peers.rows.map Peer.id).Nodup
  savedLoaded : ∀ d ∈ savedDialogs, Loaded peers d
  positive : ∀ m ∈ messages, 0 < m.id

structure GetSavedDialogs where
  excludePinned : Bool
  offsetDate : Nat
  offsetId : Nat
  offsetPeer : InputPeer
  limit : Int
  deriving DecidableEq, Repr

/-- `SavedDialog` of the schema. -/
structure Entry where
  peer : PeerTarget
  topMessage : Nat
  deriving DecidableEq, Repr

structure SavedDialogs where
  dialogs : List Entry
  messages : List MessageRow
  deriving DecidableEq, Repr

/-- `order_by("-peer__last_message_id", "-id")`, with null last. -/
def Order (d e : DialogT) : Prop :=
  rank e < rank d ∨ rank e = rank d ∧ e.id ≤ d.id
where
  rank (d : DialogT) : Nat := (d.peerRow.lastMessage.map fun m => m.id + 1).getD 0

instance : DecidableRel Order := fun _ _ => inferInstanceAs (Decidable (_ ∨ _))

def admits (offsets : Offsets) (peer : Peer) : Bool :=
  offsets.beforeId.all (fun id => peer.lastMessage.any fun m => m.id < id) &&
    offsets.beforePeer.all (fun id => peer.id < id) &&
    offsets.beforeDate.all fun date => peer.lastMessage.any fun m => m.date < date

/-- The query of `get_dialogs_internal`; only the one for `Dialog` looks at folders. -/
def query (userId : Nat) (offsets : Offsets) (limit : Int) (excludePinned : Bool)
    (rows : List DialogT) : List DialogT :=
  ((rows.filter fun d => d.ownerId = userId && admits offsets d.peerRow &&
    (!excludePinned || d.pinnedIndex.isNone)).insertionSort Order).take (effectiveLimit limit)

/-- `dialog_by_peer`. -/
abbrev ByPeer := OrderedDict Nat (DialogT × Option MessageRow)

def attach (byPeer : ByPeer) (m : MessageRow) : Except Failure ByPeer :=
  match byPeer.lookup m.peerId with
  | none => .error .other
  | some (dialog, _) => .ok (byPeer.setItem m.peerId (dialog, some m))

def toTlBulk (dialogs : List DialogT) (byPeer : ByPeer) : List Entry :=
  dialogs.map fun d =>
    ⟨d.peer, (((byPeer.lookup d.peerRow.id).bind Prod.snd).map MessageRow.id).getD 0⟩

namespace Db

variable (db : Db) (userId : Nat)

/-- `peer__owner_id=user_id, peer__user_id=user_id`. -/
def inSelfChat (m : MessageRow) : Bool :=
  (db.peers.get (some userId, .self)).any fun peer => peer.id = m.peerId

def savedFrom (peerId : Nat) : List MessageRow :=
  db.messages.rows.filter fun m => db.inSelfChat userId m && m.savedPeer = some peerId

def newest (peerId : Nat) : Option Nat := ((db.savedFrom userId peerId).map MessageRow.id).max?

def topMessageQueryBulk (dialogs : List DialogT) : List MessageRow :=
  let maxIds := dialogs.filterMap fun d => db.newest userId d.peerRow.id
  db.messages.rows.filter fun m => m.id ∈ maxIds

/-- `format_dialogs`, for `SavedDialog`. -/
def formatDialogs (dialogs : List DialogT) : Except Failure SavedDialogs :=
  if dialogs.isEmpty then .ok ⟨[], []⟩
  else do
    let messages := db.topMessageQueryBulk userId dialogs
    let byPeer ← messages.foldlM attach
      (ofPairs (dialogs.map fun d => (d.peerRow.id, (d, none))))
    .ok ⟨toTlBulk dialogs byPeer, messages⟩

def offsets (request : GetSavedDialogs) : Offsets :=
  db.toDb.offsets userId ⟨request.offsetId, request.offsetDate, request.offsetPeer, request.limit,
    none, request.excludePinned⟩

/-- What `get_saved_dialogs` selects: it does not pass `exclude_pinned` on, and the query is about
`Dialog`. -/
def queried (request : GetSavedDialogs) : List DialogT :=
  query userId (db.offsets userId request) request.limit false (db.dialogs.rows.map ofDialog)

def getSavedDialogs (request : GetSavedDialogs) : Except Failure SavedDialogs :=
  db.formatDialogs userId (db.queried userId request)

/-- The pinned dialogs, by `order_by("-pinned_index")`. -/
def pinned : List DialogT :=
  (db.savedDialogs.rows.filter fun d => d.ownerId = userId && d.pinnedIndex.isSome).insertionSort
    fun d e => e.pinnedIndex.getD 0 ≤ d.pinnedIndex.getD 0

def getPinnedSavedDialogs : Except Failure SavedDialogs := db.formatDialogs userId (db.pinned userId)

/-- What the request asks for. -/
def requested (request : GetSavedDialogs) : List DialogT :=
  query userId (db.offsets userId request) request.limit request.excludePinned
    db.savedDialogs.rows

def entries (dialogs : List DialogT) : List Entry :=
  dialogs.map fun d => ⟨d.peer, (db.newest userId d.peerRow.id).getD 0⟩

/-- The answer has the dialogs and nothing else, each once and with its newest message. -/
def Lists (answer : Except Failure SavedDialogs) (dialogs : List DialogT) : Prop :=
  ∃ listed, answer = .ok listed ∧ listed.dialogs.Perm (db.entries userId dialogs)

/-- Both requests for saved dialogs are answered with the saved dialogs. -/
def SavedListed (request : GetSavedDialogs) : Prop :=
  db.Lists userId (db.getSavedDialogs userId request) (db.requested userId request) ∧
    db.Lists userId (db.getPinnedSavedDialogs userId) (db.pinned userId)

/-- Nothing was saved from the dialogs, but for the dialog of the self chat. -/
def OnlyOwn (dialogs : List DialogT) : Prop :=
  ∀ d ∈ dialogs, d.peer ≠ .self → db.savedFrom userId d.peerRow.id = []

end Db

section Attaching

variable {byPeer after : ByPeer} {messages : List MessageRow}

theorem attach_eq_ok {m : MessageRow} (attached : attach byPeer m = .ok after) :
    ∃ v, byPeer.lookup m.peerId = some v ∧
      after = byPeer.setItem m.peerId (v.1, some m) := by
  rw [attach] at attached
  split at attached
  · cases attached
  · next dialog old found =>
      cases attached
      exact ⟨(dialog, old), found, rfl⟩

theorem lookup_of_attached {peerId : Nat} (attached : messages.foldlM attach byPeer = .ok after)
    (others : ∀ m ∈ messages, m.peerId ≠ peerId) : after.lookup peerId = byPeer.lookup peerId := by
  induction messages generalizing byPeer with
  | nil =>
    cases attached
    rfl
  | cons m messages ih =>
    rw [List.foldlM_cons] at attached
    obtain ⟨next, first, rest⟩ := (bind_eq_ok _).mp attached
    obtain ⟨v, -, rfl⟩ := attach_eq_ok first
    rw [ih rest fun n later => others n (List.mem_cons_of_mem m later), lookup_setItem,
      if_neg (Ne.symm (others m List.mem_cons_self))]

theorem attach_of_same {peerId : Nat} (nonempty : messages ≠ [])
    (same : ∀ m ∈ messages, m.peerId = peerId) {v : DialogT × Option MessageRow}
    (known : byPeer.lookup peerId = some v) :
    ∃ after, messages.foldlM attach byPeer = .ok after ∧
      ∃ m ∈ messages, after.lookup peerId = some (v.1, some m) := by
  induction messages generalizing byPeer v with
  | nil => exact absurd rfl nonempty
  | cons m messages ih =>
    have ofFirst : m.peerId = peerId := same m List.mem_cons_self
    have first : attach byPeer m = .ok (byPeer.setItem peerId (v.1, some m)) := by
      rw [attach, ofFirst, known]
    have now : (byPeer.setItem peerId (v.1, some m)).lookup peerId = some (v.1, some m) := by
      rw [lookup_setItem, if_pos rfl]
    rw [List.foldlM_cons, first]
    by_cases ends : messages = []
    · subst ends
      exact ⟨_, rfl, m, List.mem_cons_self, now⟩
    · obtain ⟨after, done, n, later, last⟩ := ih ends
        (fun n later => same n (List.mem_cons_of_mem m later)) now
      exact ⟨after, done, n, List.mem_cons_of_mem m later, last⟩

theorem lookup_initial {dialogs : List DialogT} {d : DialogT} (listed : d ∈ dialogs) :
    ∃ e, (ofPairs (dialogs.map fun d => (d.peerRow.id, (d, (none : Option MessageRow))))).lookup
      d.peerRow.id = some (e, none) := by
  obtain ⟨v, found⟩ := exists_lookup_ofPairs (List.mem_map_of_mem
    (f := fun d : DialogT => (d.peerRow.id, (d, (none : Option MessageRow)))) listed)
  obtain ⟨e, -, same⟩ := List.mem_map.mp (mem_of_lookup_ofPairs found)
  obtain ⟨-, rfl⟩ := Prod.mk.inj same
  exact ⟨e, found⟩

end Attaching

section Messages

variable {db : Db} {userId peerId : Nat}

theorem newest_eq_none_iff : db.newest userId peerId = none ↔ db.savedFrom userId peerId = [] := by
  rw [Db.newest, List.max?_eq_none_iff, List.map_eq_nil_iff]

theorem mem_savedFrom {m : MessageRow} : m ∈ db.savedFrom userId peerId ↔
    m ∈ db.messages ∧ db.inSelfChat userId m = true ∧ m.savedPeer = some peerId := by
  rw [Db.savedFrom, List.mem_filter, Bool.and_eq_true, decide_eq_true_eq]
  rfl

theorem mem_of_newest {id : Nat} (top : db.newest userId peerId = some id) :
    ∃ m ∈ db.savedFrom userId peerId, m.id = id :=
  List.mem_map.mp (List.max?_eq_some_iff.mp top).1

theorem newest_getD_eq_zero_iff :
    (db.newest userId peerId).getD 0 = 0 ↔ db.savedFrom userId peerId = [] := by
  rw [← newest_eq_none_iff]
  cases top : db.newest userId peerId with
  | none => exact ⟨fun _ => rfl, fun _ => rfl⟩
  | some id =>
    obtain ⟨m, saved, rfl⟩ := mem_of_newest top
    have positive := db.positive m (mem_savedFrom.mp saved).1
    exact ⟨fun zero => absurd zero (Nat.pos_iff_ne_zero.mp positive), fun absent => by cases absent⟩

theorem mem_topMessages {dialogs : List DialogT} {m : MessageRow} :
    m ∈ db.topMessageQueryBulk userId dialogs ↔
      m ∈ db.messages ∧ ∃ d ∈ dialogs, db.newest userId d.peerRow.id = some m.id := by
  rw [Db.topMessageQueryBulk, List.mem_filter, decide_eq_true_eq, List.mem_filterMap]
  rfl

theorem exists_topMessage {dialogs : List DialogT} {d : DialogT} (listed : d ∈ dialogs) {id : Nat}
    (top : db.newest userId d.peerRow.id = some id) :
    ∃ m ∈ db.topMessageQueryBulk userId dialogs, m.id = id := by
  obtain ⟨m, saved, rfl⟩ := mem_of_newest top
  exact ⟨m, mem_topMessages.mpr ⟨(mem_savedFrom.mp saved).1, d, listed, top⟩, rfl⟩

theorem inSelfChat_of_top {dialogs : List DialogT} {m : MessageRow}
    (top : m ∈ db.topMessageQueryBulk userId dialogs) :
    ∃ peer, db.peers.get (some userId, .self) = some peer ∧ peer.id = m.peerId := by
  obtain ⟨here, d, -, ofDialog⟩ := mem_topMessages.mp top
  obtain ⟨n, saved, sameId⟩ := mem_of_newest ofDialog
  obtain ⟨there, inSelf, -⟩ := mem_savedFrom.mp saved
  obtain rfl : n = m := Table.eq_of_key_eq there here sameId
  rw [Db.inSelfChat, Option.any_eq_true] at inSelf
  obtain ⟨peer, found, same⟩ := inSelf
  exact ⟨peer, found, of_decide_eq_true same⟩

end Messages

section Peers

variable {db : Db} {userId : Nat}

def OfUser (db : Db) (userId : Nat) (dialogs : List DialogT) : Prop :=
  ∀ d ∈ dialogs, d.ownerId = userId ∧ Loaded db.peers d

theorem ofUser_query {offsets : Offsets} {limit : Int} {excludePinned : Bool}
    {rows : List DialogT} (loaded : ∀ d ∈ rows, Loaded db.peers d) :
    OfUser db userId (query userId offsets limit excludePinned rows) := by
  intro d listed
  have sorted := List.mem_of_mem_take listed
  rw [List.mem_insertionSort, List.mem_filter, Bool.and_eq_true, Bool.and_eq_true,
    decide_eq_true_eq] at sorted
  exact ⟨sorted.2.1.1, loaded d sorted.1⟩

theorem ofUser_queried (request : GetSavedDialogs) :
    OfUser db userId (db.queried userId request) := by
  refine ofUser_query fun d listed => ?_
  obtain ⟨row, here, rfl⟩ := List.mem_map.mp listed
  exact db.loaded row here

theorem ofUser_requested (request : GetSavedDialogs) :
    OfUser db userId (db.requested userId request) :=
  ofUser_query db.savedLoaded

theorem ofUser_pinned : OfUser db userId (db.pinned userId) := by
  intro d listed
  rw [Db.pinned, List.mem_insertionSort, List.mem_filter, Bool.and_eq_true,
    decide_eq_true_eq] at listed
  exact ⟨listed.2.1, db.savedLoaded d listed.1⟩

/-- Rows of the user for one peer have one row of `Peer`. -/
theorem peerRow_eq {ds es : List DialogT} (ofDs : OfUser db userId ds) (ofEs : OfUser db userId es)
    {d e : DialogT} (inDs : d ∈ ds) (inEs : e ∈ es) (same : d.peer = e.peer) :
    d.peerRow = e.peerRow := by
  obtain ⟨owned, loaded⟩ := ofDs d inDs
  obtain ⟨ownedToo, loadedToo⟩ := ofEs e inEs
  rw [Loaded, owned] at loaded
  rw [Loaded, ownedToo, ← same, loaded] at loadedToo
  exact Option.some.inj loadedToo

theorem isSelf_of_id {dialogs : List DialogT} (ofUser : OfUser db userId dialogs) {d : DialogT}
    (listed : d ∈ dialogs) {self : Peer} (found : db.peers.get (some userId, .self) = some self)
    (same : self.id = d.peerRow.id) : d.peer = .self := by
  obtain ⟨selfHere, selfKey⟩ := Table.get_eq_some_iff.mp found
  obtain ⟨here, key⟩ := Table.get_eq_some_iff.mp (ofUser d listed).2
  obtain rfl : self = d.peerRow := List.inj_on_of_nodup_map db.peerIds selfHere here same
  rw [key] at selfKey
  exact (Prod.mk.inj selfKey).2

theorem selfRow {dialogs : List DialogT} (ofUser : OfUser db userId dialogs) {d : DialogT}
    (listed : d ∈ dialogs) (isSelf : d.peer = .self) :
    db.peers.get (some userId, .self) = some d.peerRow := by
  obtain ⟨owned, loaded⟩ := ofUser d listed
  rw [Loaded, owned, isSelf] at loaded
  exact loaded

end Peers

section Formatting

variable {db : Db} {userId : Nat} {dialogs : List DialogT}

theorem formatDialogs_eq : db.formatDialogs userId dialogs =
    ((db.topMessageQueryBulk userId dialogs).foldlM attach
      (ofPairs (dialogs.map fun d => (d.peerRow.id, (d, none))))).map
        fun byPeer => ⟨toTlBulk dialogs byPeer, db.topMessageQueryBulk userId dialogs⟩ := by
  rw [Db.formatDialogs]
  cases dialogs with
  | nil =>
    have none : db.topMessageQueryBulk userId [] = [] :=
      List.filter_eq_nil_iff.mpr fun m _ chosen => by cases of_decide_eq_true chosen
    rw [none]
    rfl
  | cons d dialogs => rfl

theorem top_eq_zero (ofUser : OfUser db userId dialogs) {byPeer : ByPeer}
    (attached : (db.topMessageQueryBulk userId dialogs).foldlM attach
      (ofPairs (dialogs.map fun d => (d.peerRow.id, (d, none)))) = .ok byPeer)
    {d : DialogT} (listed : d ∈ dialogs) (other : d.peer ≠ .self) :
    ⟨d.peer, 0⟩ ∈ toTlBulk dialogs byPeer := by
  obtain ⟨e, initial⟩ := lookup_initial listed
  have untouched : byPeer.lookup d.peerRow.id = some (e, none) := by
    rw [lookup_of_attached attached fun m top same => ?_, initial]
    obtain ⟨self, found, held⟩ := inSelfChat_of_top top
    exact other (isSelf_of_id ofUser listed found (held.trans same))
  refine List.mem_map.mpr ⟨d, listed, ?_⟩
  rw [untouched]
  rfl

theorem formatDialogs_of_onlyOwn (ofUser : OfUser db userId dialogs)
    (only : db.OnlyOwn userId dialogs) :
    ∃ listed, db.formatDialogs userId dialogs = .ok listed ∧
      listed.dialogs = db.entries userId dialogs := by
  have ownTop : ∀ m ∈ db.topMessageQueryBulk userId dialogs,
      ∃ d ∈ dialogs, d.peer = .self ∧ db.newest userId d.peerRow.id = some m.id := by
    intro m top
    obtain ⟨-, d, listed, newest⟩ := mem_topMessages.mp top
    refine ⟨d, listed, ?_, newest⟩
    by_contra other
    rw [newest_eq_none_iff.mpr (only d listed other)] at newest
    cases newest
  rw [formatDialogs_eq]
  by_cases noMessage : db.topMessageQueryBulk userId dialogs = []
  · rw [noMessage]
    refine ⟨_, rfl, List.map_congr_left fun d listed => ?_⟩
    obtain ⟨e, initial⟩ := lookup_initial listed
    have none : db.newest userId d.peerRow.id = none := by
      cases newest : db.newest userId d.peerRow.id with
      | none => rfl
      | some id =>
        obtain ⟨m, top, -⟩ := exists_topMessage listed newest
        rw [noMessage] at top
        cases top
    rw [initial, none]
    rfl
  · obtain ⟨first, top⟩ := List.exists_mem_of_ne_nil _ noMessage
    obtain ⟨own, ownListed, isSelf, -⟩ := ownTop first top
    have self := selfRow ofUser ownListed isSelf
    have held : ∀ m ∈ db.topMessageQueryBulk userId dialogs, m.peerId = own.peerRow.id := by
      intro m top
      obtain ⟨peer, found, holds⟩ := inSelfChat_of_top top
      rw [self] at found
      rw [← holds, Option.some.inj found]
    obtain ⟨e, initial⟩ := lookup_initial ownListed
    obtain ⟨byPeer, attached, m, last, entry⟩ := attach_of_same noMessage held initial
    rw [attached]
    refine ⟨_, rfl, List.map_congr_left fun d listed => ?_⟩
    by_cases same : d.peer = .self
    · have row := peerRow_eq ofUser ofUser listed ownListed (same.trans isSelf.symm)
      obtain ⟨d', listed', isSelf', newest⟩ := ownTop m last
      rw [peerRow_eq ofUser ofUser listed' ownListed (isSelf'.trans isSelf.symm)] at newest
      rw [row, entry, newest]
      rfl
    · have zero := newest_getD_eq_zero_iff.mpr (only d listed same)
      obtain ⟨d', initial'⟩ := lookup_initial listed
      have untouched : byPeer.lookup d.peerRow.id = some (d', none) := by
        rw [lookup_of_attached attached fun n top sameId => ?_, initial']
        obtain ⟨self, found, held⟩ := inSelfChat_of_top top
        exact same (isSelf_of_id ofUser listed found (held.trans sameId))
      rw [zero, untouched]
      rfl

/-- The answer lists other rows rightly exactly when they have the same peers and nothing was saved
from the other dialogs than the self chat's. -/
theorem lists_iff {rows : List DialogT} (ofUser : OfUser db userId dialogs)
    (ofRows : OfUser db userId rows) :
    db.Lists userId (db.formatDialogs userId dialogs) rows ↔
      (dialogs.map fun d => d.peer).Perm (rows.map fun d => d.peer) ∧
        db.OnlyOwn userId dialogs := by
  constructor
  · rintro ⟨listed, answered, same⟩
    rw [formatDialogs_eq, map_eq_ok] at answered
    obtain ⟨byPeer, attached, rfl⟩ := answered
    refine ⟨?_, fun d here other => ?_⟩
    · have peers := same.map Entry.peer
      rw [Db.entries, toTlBulk, List.map_map, List.map_map] at peers
      exact peers
    · have shown := same.mem_iff.mp (top_eq_zero ofUser attached here other)
      obtain ⟨e, there, sameEntry⟩ := List.mem_map.mp shown
      obtain ⟨samePeer, zero⟩ := Entry.mk.inj sameEntry
      rw [peerRow_eq ofRows ofUser there here samePeer] at zero
      exact newest_getD_eq_zero_iff.mp zero
  · rintro ⟨samePeers, only⟩
    obtain ⟨listed, answered, shown⟩ := formatDialogs_of_onlyOwn ofUser only
    refine ⟨listed, answered, ?_⟩
    rw [shown]
    -- an entry is determined by the peer
    let entry (peer : PeerTarget) : Entry := ⟨peer, ((db.peers.get (ownerFor userId peer, peer)).bind
      fun row => db.newest userId row.id).getD 0⟩
    have byPeer : ∀ {ds : List DialogT}, OfUser db userId ds →
        db.entries userId ds = (ds.map fun d => d.peer).map entry := by
      intro ds ofDs
      rw [List.map_map]
      refine List.map_congr_left fun d here => ?_
      obtain ⟨owned, loaded⟩ := ofDs d here
      rw [Loaded, owned] at loaded
      show _ = Entry.mk d.peer _
      rw [loaded]
      rfl
    rw [byPeer ofUser, byPeer ofRows]
    exact samePeers.map entry

private def savedOnce : Db where
  peers := ⟨[⟨31, some 1, .self, some ⟨50, 7400000, false⟩⟩, ⟨32, some 1, .user 2, some ⟨51, 8300000, false⟩⟩,
    ⟨33, some 1, .user 3, none⟩], by decide⟩
  dialogs := ⟨[⟨⟨⟨1, .user 2, none⟩, .all, true⟩, 1, ⟨32, some 1, .user 2, some ⟨51, 8300000, false⟩⟩⟩],
    by decide⟩
  loaded := by
    intro d here
    rw [Table.mem_def, List.mem_singleton] at here
    subst here
    decide
  notSelf := by
    intro d here
    rw [Table.mem_def, List.mem_singleton] at here
    subst here
    decide
  savedDialogs := ⟨[⟨⟨1, .user 3, some 0⟩, 1, ⟨33, some 1, .user 3, none⟩⟩], by decide⟩
  messages := ⟨[⟨50, 31, some 33⟩], by decide⟩
  peerIds := by decide
  savedLoaded := by
    intro d here
    rw [Table.mem_def, List.mem_singleton] at here
    subst here
    exact rfl
  positive := by
    intro m here
    rw [Table.mem_def, List.mem_singleton] at here
    subst here
    decide

end Formatting

end Piltover.Dialogs.Saved
