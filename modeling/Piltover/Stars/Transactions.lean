/- source: piltover/app/utils/stars_manager.py, piltover/db/models/stars_transaction.py
   digest: The pages of the transactions of a wallet are a partition of them. -/

import Mathlib.Data.Prod.Lex
import Mathlib.Data.String.Basic
import Piltover.Foundation.Cursors
import Piltover.Stars.Balance

set_option autoImplicit false

namespace Piltover.Stars

open Foundation

/-- The rows of `StarsTransaction`. Their identifiers are the primary key and come from `gen_id`,
which gives hexadecimal digits. -/
structure Transactions where
  rows : List StarsTransaction
  distinct : (rows.map StarsTransaction.transactionId).Nodup
  named : ∀ t ∈ rows, t.transactionId ≠ ""

instance : Membership StarsTransaction Transactions := ⟨fun db t => t ∈ db.rows⟩

/-- What stays the same from one call of `fetch_transactions` to the next. -/
structure Listing where
  wallet : UserId
  inbound : Bool
  outbound : Bool
  ascending : Bool
  limit : Int
  deriving DecidableEq, Repr

namespace Listing

variable (q : Listing)

/-- The transactions that are asked for. -/
def asks (t : StarsTransaction) : Bool :=
  t.userId == q.wallet &&
    if q.inbound && !q.outbound then t.inbound
    else if q.outbound && !q.inbound then !t.inbound
    else true

/-- `Q(date__gt=…) | (Q(date=…) & Q(transaction_id__gt=…))`, or the same with `lt`. -/
def after (cursor t : StarsTransaction) : Bool :=
  if q.ascending then
    decide (cursor.date < t.date) ||
      (t.date == cursor.date && decide (cursor.transactionId < t.transactionId))
  else
    decide (t.date < cursor.date) ||
      (t.date == cursor.date && decide (t.transactionId < cursor.transactionId))

/-- `order_by("date", "transaction_id")`, or both descending. -/
def InOrder (s t : StarsTransaction) : Prop := q.after t s = false

instance : DecidableRel q.InOrder := fun s t => inferInstanceAs (Decidable (q.after t s = false))

/-- How many transactions are on a page. -/
def size : Nat := (if q.limit ≤ 0 then 50 else min q.limit 50).toNat

def fetchTransactions (db : Transactions) (offset : String) (subscriptionId : Option String) :
    List StarsTransaction × Option String :=
  if subscriptionId.isSome then ([], none)
  else
    let offsetTx := if offset = "" then none
      else db.rows.find? fun t => t.transactionId == offset && t.userId == q.wallet
    let query := db.rows.filter fun t => q.asks t && offsetTx.all fun cursor => q.after cursor t
    let rows := (query.insertionSort q.InOrder).take (q.size + 1)
    let hasMore := decide (q.size < rows.length)
    let rows := rows.take q.size
    (rows, if hasMore then rows.getLast?.map StarsTransaction.transactionId else none)

/-- Call `fetch_transactions` and follow `next_offset`, with the rows that are stored at each of the
calls: the transactions that were returned, and the offset to go on with. -/
def follow : List Transactions → String → List StarsTransaction × Option String
  | [], offset => ([], some offset)
  | db :: later, offset =>
    match q.fetchTransactions db offset none with
    | (rows, none) => (rows, none)
    | (rows, some next) =>
      let rest := follow later next
      (rows ++ rest.1, rest.2)

/-- Rows are added, and none is changed or deleted. -/
def Grows (before after : Transactions) : Prop := ∀ t ∈ before, t ∈ after

/-! ### Pages by rank -/

variable {q}

theorem size_pos : 0 < q.size := by
  rw [size]
  split <;> omega

theorem find_of_mem {db : Transactions} {t : StarsTransaction} (there : t ∈ db) {wallet : UserId}
    (owned : t.userId = wallet) :
    db.rows.find? (fun s => s.transactionId == t.transactionId && s.userId == wallet) = some t := by
  cases found : db.rows.find? fun s => s.transactionId == t.transactionId && s.userId == wallet with
  | none => simpa [owned] using List.find?_eq_none.mp found t there
  | some s =>
    have same := List.find?_some found
    rw [Bool.and_eq_true, beq_iff_eq] at same
    rw [List.inj_on_of_nodup_map db.distinct (List.mem_of_find?_eq_some found) there same.1]

section

universe v

variable {κ : Type v} [LinearOrder κ] {rank : StarsTransaction → κ}

theorem fetchTransactions_eq (agrees : ∀ s t, q.after s t = true ↔ rank s < rank t)
    {db : Transactions} {offset : String} {cursor : Option StarsTransaction}
    (resolved : (if offset = "" then none else
      db.rows.find? fun t => t.transactionId == offset && t.userId == q.wallet) = cursor) :
    q.fetchTransactions db offset none =
      let rows := Cursors.beyond rank (db.rows.filter q.asks) (cursor.map rank)
      (rows.take q.size, if q.size < rows.length
        then (rows.take q.size).getLast?.map StarsTransaction.transactionId else none) := by
  have inOrder (s t : StarsTransaction) : q.InOrder s t ↔ rank s ≤ rank t := by
    rw [InOrder, ← not_lt, ← agrees, Bool.not_eq_true]
  have query : (db.rows.filter fun t => q.asks t && cursor.all fun c => q.after c t) =
      (db.rows.filter q.asks).filter fun t => (cursor.map rank).all fun c => decide (c < rank t) := by
    rw [List.filter_filter]
    refine List.filter_congr fun t _ => ?_
    rw [Bool.and_comm, Option.all_map]
    congr 2
    funext c
    exact Bool.eq_iff_iff.mpr ((agrees c t).trans decide_eq_true_iff.symm)
  have sorted : (db.rows.filter fun t => q.asks t && cursor.all fun c => q.after c t).insertionSort
      q.InOrder = Cursors.beyond rank (db.rows.filter q.asks) (cursor.map rank) := by
    rw [query, Foundation.Paging.insertionSort_congr inOrder]
    rfl
  have more (rows : List StarsTransaction) :
      q.size < (rows.take (q.size + 1)).length ↔ q.size < rows.length := by
    rw [List.length_take]
    omega
  rw [fetchTransactions, if_neg (by decide)]
  dsimp only
  rw [resolved, sorted, List.take_take, Nat.min_eq_left (Nat.le_succ _)]
  simp only [more, decide_eq_true_eq]

inductive Resolves (q : Listing) (tables : List Transactions) :
    String → Option StarsTransaction → Prop
  | start : Resolves q tables "" none
  | row {t : StarsTransaction} (owned : t.userId = q.wallet) (there : ∀ db ∈ tables, t ∈ db) :
      Resolves q tables t.transactionId (some t)

theorem Resolves.resolved {db : Transactions} {tables : List Transactions} {offset : String}
    {cursor : Option StarsTransaction} (resolves : Resolves q (db :: tables) offset cursor) :
    (if offset = "" then none else
      db.rows.find? fun t => t.transactionId == offset && t.userId == q.wallet) = cursor := by
  cases resolves with
  | start => exact if_pos rfl
  | row owned there =>
    have here := there db List.mem_cons_self
    rw [if_neg (db.named _ here), find_of_mem here owned]

theorem follow_eq (agrees : ∀ s t, q.after s t = true ↔ rank s < rank t)
    {tables : List Transactions} (grow : tables.Pairwise Grows) {offset : String}
    {cursor : Option StarsTransaction} (resolves : Resolves q tables offset cursor) :
    (q.follow tables offset).1 = (Cursors.follow rank q.size
        (tables.map fun db => db.rows.filter q.asks) (cursor.map rank)).1 ∧
      ((q.follow tables offset).2 = none ↔ (Cursors.follow rank q.size
        (tables.map fun db => db.rows.filter q.asks) (cursor.map rank)).2 = true) := by
  induction tables generalizing offset cursor with
  | nil => exact ⟨rfl, by simp [follow, Cursors.follow]⟩
  | cons db tables ih =>
    have fetched := fetchTransactions_eq agrees resolves.resolved
    obtain ⟨grows, later⟩ := List.pairwise_cons.mp grow
    rw [List.map_cons, follow, fetched]
    dsimp only
    by_cases more : q.size <
        (Cursors.beyond rank (db.rows.filter q.asks) (cursor.map rank)).length
    · have nonempty : (Cursors.beyond rank (db.rows.filter q.asks) (cursor.map rank)).take q.size ≠
          [] := by
        rw [Ne, List.take_eq_nil_iff]
        rintro (none_asked | nothing)
        · exact absurd none_asked (Nat.ne_of_gt size_pos)
        · rw [nothing] at more
          exact absurd more (Nat.not_lt_zero _)
      have ends := List.getLast?_eq_some_getLast nonempty
      have onPage := List.mem_filter.mp
        (Cursors.mem_beyond.mp (List.mem_of_mem_take (List.getLast_mem nonempty))).1
      rw [if_pos more, Cursors.follow_cons_of_more more, ends]
      dsimp only [Option.map_some]
      have owned := (Bool.and_eq_true_iff.mp onPage.2).1
      obtain ⟨read, ended⟩ := ih later
        (Resolves.row (beq_iff_eq.mp owned) fun table listed => grows table listed _ onPage.1)
      exact ⟨congrArg _ read, ended⟩
    · rw [if_neg more, Cursors.follow_cons_of_last more, List.take_of_length_le (not_lt.mp more)]
      exact ⟨rfl, by simp⟩

theorem ranks_distinct (agrees : ∀ s t, q.after s t = true ↔ rank s < rank t) (db : Transactions) :
    ((db.rows.filter q.asks).map rank).Nodup := by
  have apart : db.rows.Pairwise fun s t => s.transactionId ≠ t.transactionId :=
    List.pairwise_map.mp db.distinct
  refine List.pairwise_map.mpr ((apart.sublist List.filter_sublist).imp ?_)
  intro s t different same
  have forth := mt (agrees s t).mp (by rw [same]; exact lt_irrefl _)
  have back := mt (agrees t s).mp (by rw [same]; exact lt_irrefl _)
  rcases Int.lt_trichotomy s.date t.date with less | equal | greater
  · cases direction : q.ascending <;> simp [after, direction, less] at forth back
  · rcases lt_trichotomy s.transactionId t.transactionId with less | equal' | greater
    · cases direction : q.ascending <;> simp [after, direction, equal, less] at forth back
    · exact different equal'
    · cases direction : q.ascending <;> simp [after, direction, equal, greater] at forth back
  · cases direction : q.ascending <;> simp [after, direction, greater] at forth back

end

/-- What is read of the pages of growing tables, the first of which is `db`. -/
structure Partitions (q : Listing) (db : Transactions) (later : List Transactions) : Prop where
  /-- The transactions are in strict order, so that none is repeated. -/
  ordered : (q.follow (db :: later) "").1.Pairwise fun s t => q.after s t = true
  stored : ∀ t ∈ (q.follow (db :: later) "").1, q.asks t = true ∧ ∃ table ∈ db :: later, t ∈ table
  /-- Once the offset is `None`, what was there from the start has been returned exactly once. -/
  complete : (q.follow (db :: later) "").2 = none →
    ∀ t ∈ db, q.asks t = true → (q.follow (db :: later) "").1.count t = 1
  /-- The offset is `None` after more calls than there are rows. -/
  ends : ∀ all : List StarsTransaction, (∀ table ∈ db :: later, table.rows ⊆ all) →
    all.length < (db :: later).length → (q.follow (db :: later) "").2 = none

section

universe v

variable {κ : Type v} [LinearOrder κ] {rank : StarsTransaction → κ}

theorem partitions_of_rank (agrees : ∀ s t, q.after s t = true ↔ rank s < rank t)
    {db : Transactions} {later : List Transactions} (grow : (db :: later).Pairwise Grows) :
    q.Partitions db later := by
  obtain ⟨read, ended⟩ := follow_eq agrees grow (Resolves.start (q := q))
  have distinct : ∀ rows ∈ (db :: later).map fun db => db.rows.filter q.asks,
      (rows.map rank).Nodup := by
    intro rows listed
    obtain ⟨table, -, rfl⟩ := List.mem_map.mp listed
    exact ranks_distinct agrees table
  have sorted := (Cursors.follow_sorted distinct (size_pos (q := q)) none).1
  have stored : ∀ t ∈ (q.follow (db :: later) "").1,
      ∃ table ∈ db :: later, t ∈ table.rows.filter q.asks := by
    intro t listed
    rw [read] at listed
    obtain ⟨rows, among, there⟩ := Cursors.follow_sound listed
    obtain ⟨table, here, rfl⟩ := List.mem_map.mp among
    exact ⟨table, here, there⟩
  refine ⟨?_, ?_, ?_, ?_⟩
  · rw [read]
    exact sorted.imp fun less => (agrees _ _).mpr less
  · intro t listed
    obtain ⟨table, here, there⟩ := stored t listed
    exact ⟨(List.mem_filter.mp there).2, table, here, (List.mem_filter.mp there).1⟩
  · intro finished t there asked
    have inAll : ∀ rows ∈ (db :: later).map fun db => db.rows.filter q.asks, t ∈ rows := by
      intro rows listed
      obtain ⟨table, here, rfl⟩ := List.mem_map.mp listed
      refine List.mem_filter.mpr ⟨?_, asked⟩
      rcases List.mem_cons.mp here with rfl | afterwards
      · exact there
      · exact (List.pairwise_cons.mp grow).1 table afterwards t there
    rw [read]
    refine List.count_eq_one_of_mem ?_ (Cursors.follow_complete distinct size_pos inAll ?_
      (ended.mp finished))
    · exact sorted.imp fun less same => absurd less (by rw [same]; exact lt_irrefl _)
    · rintro c ⟨⟩
  · intro all within many
    have inside : ∀ rows ∈ (db :: later).map fun db => db.rows.filter q.asks, rows ⊆ all := by
      intro rows listed
      obtain ⟨table, here, rfl⟩ := List.mem_map.mp listed
      exact fun t there => within table here (List.mem_filter.mp there).1
    refine ended.mpr (Cursors.follow_ends distinct size_pos inside ?_)
    rw [List.length_map]
    exact many

end

theorem partitions {db : Transactions} {later : List Transactions}
    (grow : (db :: later).Pairwise Grows) : q.Partitions db later := by
  cases direction : q.ascending with
  | true =>
    have agrees (s t : StarsTransaction) : q.after s t = true ↔
        toLex (s.date, s.transactionId) < toLex (t.date, t.transactionId) := by
      simp [after, direction, Prod.Lex.toLex_lt_toLex, @eq_comm _ t.date]
    exact partitions_of_rank agrees grow
  | false =>
    have agrees (s t : StarsTransaction) : q.after s t = true ↔
        OrderDual.toDual (toLex (s.date, s.transactionId)) <
          OrderDual.toDual (toLex (t.date, t.transactionId)) := by
      simp [after, direction, Prod.Lex.toLex_lt_toLex]
    exact partitions_of_rank agrees grow

/-- Following the offsets partitions the transactions that were stored at the first call, whatever is
added meanwhile; where nothing is added, it ends with each of them and nothing else. -/
theorem fetchTransactions_partition (q : Listing) (db : Transactions) :
    (∀ later : List Transactions, (db :: later).Pairwise Grows → q.Partitions db later) ∧
      ∀ n, db.rows.length < n → (q.follow (List.replicate n db) "").2 = none ∧
        (q.follow (List.replicate n db) "").1.Pairwise (fun s t => q.after s t = true) ∧
        (q.follow (List.replicate n db) "").1.Perm (db.rows.filter q.asks) := by
  refine ⟨fun later grow => partitions grow, fun n many => ?_⟩
  obtain ⟨n, rfl⟩ : ∃ m, n = m + 1 := ⟨n - 1, by omega⟩
  have same (table : Transactions) (listed : table ∈ db :: List.replicate n db) : table = db := by
    rcases List.mem_cons.mp listed with here | later
    · exact here
    · exact List.eq_of_mem_replicate later
  have grow : (db :: List.replicate n db).Pairwise Grows :=
    List.pairwise_of_forall_mem_list fun a here b there t => by
      rw [same a here, same b there]
      exact id
  have parts := partitions (q := q) grow
  have finished := parts.ends db.rows
    (fun table listed => by rw [same table listed]; exact List.Subset.refl _)
    (by rw [List.length_cons, List.length_replicate]; exact many)
  rw [List.replicate_succ]
  refine ⟨finished, parts.ordered, ?_⟩
  have once : (q.follow (db :: List.replicate n db) "").1.Nodup := by
    refine parts.ordered.imp fun {s t} later equal => ?_
    cases direction : q.ascending <;> simp [after, direction, equal] at later
  refine (List.perm_ext_iff_of_nodup once
    (List.Nodup.filter _ (List.Nodup.of_map _ db.distinct))).mpr fun t => ?_
  rw [List.mem_filter]
  constructor
  · intro listed
    obtain ⟨asked, table, here, there⟩ := parts.stored t listed
    exact ⟨same table here ▸ there, asked⟩
  · rintro ⟨there, asked⟩
    exact List.one_le_count_iff.mp (parts.complete finished t there asked).ge

end Listing

/-- A transaction of the first wallet. -/
def tip (transactionId : String) (date : Int) : StarsTransaction :=
  ⟨transactionId, 1, 5, true, date, ⟨.peer, none, "tip", none, false, none, none⟩⟩

def tips : Transactions := ⟨[tip "b" 7, tip "a" 7], by decide, by decide⟩

/-- Another transaction of the same second. -/
def moreTips : Transactions := ⟨[tip "b" 7, tip "a" 7, tip "c" 7], by decide, by decide⟩

def tipsInOrder : Listing := ⟨1, true, true, true, 1⟩

theorem tips_partition : tipsInOrder.Partitions tips [moreTips] ∧
    (tipsInOrder.follow (List.replicate 3 tips) "").2 = none :=
  have parts := Listing.fetchTransactions_partition tipsInOrder tips
  ⟨parts.1 [moreTips] (List.pairwise_pair.mpr (by decide : ∀ t ∈ tips.rows, t ∈ moreTips.rows)),
    (parts.2 3 (by decide)).1⟩

-- The one that is inserted between two pages comes last.
example : (tipsInOrder.follow [tips, moreTips, moreTips] "").1.map StarsTransaction.transactionId =
    ["a", "b", "c"] := by
  decide

end Piltover.Stars
