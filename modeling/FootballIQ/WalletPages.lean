import FootballIQ.KeysetPaging
import FootballIQ.Wallet

/-!
# The transactions of a wallet, page by page

The cursor of the endpoint is the time of the last line of the page and nothing else, and the
next page asks for strictly earlier lines. Lines of the same millisecond are lost where a page
ends between them.
-/

namespace FootballIQ
namespace WalletPages

open Transaction Relational WalletAccounts KeysetPaging

section Endpoint

/-- A journal line with its time and the columns of its entry that the endpoint includes. -/
structure LineRow where
  id : ℕ
  accountId : ℕ
  amountMinor : ℤ
  createdAt : DateTime
  entryType : JournalType
  entryDescription : String
  deriving DecidableEq

inductive Direction where
  | credit | debit
  deriving DecidableEq

structure TransactionItem where
  id : ℕ
  type : JournalType
  description : String
  amountMinor : ℤ
  direction : Direction
  at_ : DateTime
  deriving DecidableEq

def toItem (l : LineRow) : TransactionItem where
  id := l.id
  type := l.entryType
  description := l.entryDescription
  amountMinor := l.amountMinor
  direction := if l.amountMinor ≥ 0 then .credit else .debit
  at_ := l.createdAt

/-- The cursor is the time that its text stands for, in milliseconds. -/
structure CursorPaginationQuery where
  cursor : Option DateTime
  limit : ℕ
  limit_range : 1 ≤ limit ∧ limit ≤ 100

structure TransactionPage where
  items : List TransactionItem
  nextCursor : Option DateTime
  deriving DecidableEq

def linesOf (lines : List LineRow) (accountId : ℕ) : List LineRow :=
  lines.filter (fun l => l.accountId = accountId)

/-- `order` is what the database makes of `orderBy: createdAt desc` for one query. -/
def transactions (order : Option DateTime → List LineRow → List LineRow) (lines : List LineRow)
    (userId : ℕ) (query : CursorPaginationQuery) : Tx Failure Db TransactionPage := do
  let account ← userAvailable userId
  let found := (order query.cursor ((linesOf lines account.id).filter
    (fun l => query.cursor.all (fun cursor => l.createdAt < cursor)))).take (query.limit + 1)
  let page := found.take query.limit
  return {
    items := page.map toItem
    nextCursor := if query.limit < found.length then page.getLast?.map (·.createdAt) else none }

/-- What the client gets for a cursor; a refused call ends it. -/
def fetchPage (order : Option DateTime → List LineRow → List LineRow) (lines : List LineRow)
    (userId limit : ℕ) (hl : 1 ≤ limit ∧ limit ≤ 100) (db : Db) (cursor : Option DateTime) :
    List TransactionItem × Option DateTime :=
  match transactions order lines userId ⟨cursor, limit, hl⟩ db with
  | .ok (page, _) => (page.items, page.nextCursor)
  | .error _ => ([], none)

end Endpoint

section Reading

/-- Newest first, lines of the same time in an order of the database's own, which may differ
from query to query. -/
def NewestFirst (order : Option DateTime → List LineRow → List LineRow) : Prop :=
  ∀ cursor ls, (order cursor ls).Perm ls ∧
    (order cursor ls).Pairwise (fun a b => b.createdAt ≤ a.createdAt)

/-- Following the cursors until there is none more reads every line of the account exactly
once, newest first. -/
def ReadsAll (order : Option DateTime → List LineRow → List LineRow) (lines : List LineRow)
    (userId accountId limit : ℕ) (hl : 1 ≤ limit ∧ limit ≤ 100) (db : Db) : Prop :=
  ∃ n items, follow (fetchPage order lines userId limit hl db) n none = some items ∧
    items.Perm ((linesOf lines accountId).map toItem) ∧
    items.Pairwise (fun a b => b.at_ ≤ a.at_)

variable {order : Option DateTime → List LineRow → List LineRow} {userId limit : ℕ} {db : Db}
  {account : LedgerAccount} (horder : NewestFirst order) (lines : List LineRow)
  (hl : 1 ≤ limit ∧ limit ≤ 100)
include horder

theorem fetchPage_eq
    (haccount : ofUser db.ledger.accounts userId .userAvailable "NGN" = some account)
    (cursor : Option DateTime) : ∃ out,
      Answers TransactionItem.at_ ((linesOf lines account.id).map toItem) cursor out ∧
        fetchPage order lines userId limit hl db cursor = page TransactionItem.at_ limit out := by
  let found := order cursor ((linesOf lines account.id).filter
    (fun l => cursor.all (fun cursor => l.createdAt < cursor)))
  obtain ⟨hperm, hsorted⟩ := horder cursor ((linesOf lines account.id).filter
    (fun l => cursor.all (fun cursor => l.createdAt < cursor)))
  refine ⟨found.map toItem, ⟨?_, ?_⟩, ?_⟩
  · rw [List.filter_map]
    have hbelow : below TransactionItem.at_ cursor ∘ toItem =
        fun l => cursor.all (fun cursor => l.createdAt < cursor) := by
      funext l
      cases cursor with
      | none => rfl
      | some c => rfl
    rw [hbelow]
    exact hperm.map toItem
  · rw [List.pairwise_map]
    exact hsorted
  · have hread : userAvailable userId db = .ok (account, db) :=
      (userAvailable_ok_iff db db account userId).2 ⟨haccount, rfl⟩
    have hmore : limit < (found.take (limit + 1)).length ↔ limit < found.length := by
      rw [List.length_take]
      omega
    have htake : (found.take (limit + 1)).take limit = found.take limit := by
      rw [List.take_take, Nat.min_eq_left (Nat.le_succ limit)]
    unfold fetchPage transactions
    rw [bind_of_ok hread]
    change ((((found.take (limit + 1)).take limit).map toItem, if limit < (found.take
      (limit + 1)).length then ((found.take (limit + 1)).take limit).getLast?.map (·.createdAt)
      else none) : List TransactionItem × Option DateTime) = _
    rw [htake, page, List.length_map, ← List.map_take, List.getLast?_map, Option.map_map]
    simp only [hmore]
    rfl

/-- Reading on always comes to an end, newest first. -/
theorem reading_ends
    (haccount : ofUser db.ledger.accounts userId .userAvailable "NGN" = some account) :
    ∃ n items, follow (fetchPage order lines userId limit hl db) n none = some items ∧
      items.Pairwise (fun a b => b.at_ ≤ a.at_) := by
  obtain ⟨n, items, hitems, hsorted, _⟩ :=
    follow_complete_iff hl.1 (fetchPage_eq horder lines hl haccount)
  exact ⟨n, items, hitems, hsorted⟩

/-- The client reads every line of the wallet exactly if no page ends between two lines of the
same time. -/
theorem readsAll_iff
    (haccount : ofUser db.ledger.accounts userId .userAvailable "NGN" = some account) :
    ReadsAll order lines userId account.id limit hl db ↔
      ∀ time k, ¬ ((linesOf lines account.id).countP (fun l => time < l.createdAt) < k * limit ∧
        k * limit < (linesOf lines account.id).countP (fun l => time ≤ l.createdAt)) := by
  obtain ⟨n, items, hitems, hsorted, hiff⟩ :=
    follow_complete_iff hl.1 (fetchPage_eq horder lines hl haccount)
  have hunsplit : Unsplit TransactionItem.at_ limit ((linesOf lines account.id).map toItem) ↔
      ∀ time k, ¬ ((linesOf lines account.id).countP (fun l => time < l.createdAt) < k * limit ∧
        k * limit < (linesOf lines account.id).countP (fun l => time ≤ l.createdAt)) := by
    unfold Unsplit
    simp only [List.countP_map]
    exact Iff.rfl
  rw [← hunsplit, ← hiff]
  constructor
  · rintro ⟨n', items', hitems', hperm, _⟩
    rwa [follow_unique hitems hitems']
  · intro hperm
    exact ⟨n, items, hitems, hperm, hsorted⟩

end Reading

section Sample

/-- A database that sorts stably. -/
def stableOrder (_cursor : Option DateTime) (ls : List LineRow) : List LineRow :=
  ls.insertionSort (fun a b => b.createdAt ≤ a.createdAt)

theorem newestFirst_stableOrder : NewestFirst stableOrder := by
  intro cursor ls
  have htotal : Std.Total (fun a b : LineRow => b.createdAt ≤ a.createdAt) :=
    ⟨fun a b => le_total b.createdAt a.createdAt⟩
  have htrans : IsTrans LineRow (fun a b => b.createdAt ≤ a.createdAt) :=
    ⟨fun a b c hab hbc => hbc.trans hab⟩
  exact ⟨List.perm_insertionSort _ ls, List.pairwise_insertionSort _ ls⟩

def walletDb : Db :=
  { Db.empty with
    ledger := ⟨⟨[⟨1, .userAvailable, some 7, none, "NGN", 900⟩], by decide⟩, Table.empty⟩ }

/-- Two refunds of one millisecond after a deposit. -/
def walletLines : List LineRow :=
  [⟨1, 1, 500, 1000, .deposit, "Wallet deposit"⟩, ⟨2, 1, 200, 2000, .entryRefund, "Refund — A"⟩,
    ⟨3, 1, 200, 2000, .entryRefund, "Refund — B"⟩]

theorem readsAll_iff_pairs : ReadsAll stableOrder walletLines 7 1 2 (by decide) walletDb := by
  have hwallet : ofUser walletDb.ledger.accounts 7 .userAvailable "NGN" =
      some ⟨1, .userAvailable, some 7, none, "NGN", 900⟩ := by decide
  apply (readsAll_iff newestFirst_stableOrder walletLines (by decide) hwallet).2
  intro time k
  have hlines : linesOf walletLines 1 = walletLines := rfl
  rw [hlines, walletLines]
  simp only [List.countP_cons, List.countP_nil, decide_eq_true_eq]
  -- A page ends after two lines, and the two that share their time are on the first one.
  by_cases hearly : time ≤ 1000
  · have hlate : time < 2000 := lt_of_le_of_lt hearly (by decide)
    simp only [hearly, hlate, hlate.le, if_true]
    split_ifs <;> omega
  · have hlate : ¬ time < 1000 := fun h => hearly h.le
    simp only [hearly, hlate, if_false]
    split_ifs <;> omega

/-- Read one by one, the second of the two refunds is never seen. -/
theorem not_readsAll_singles : ¬ ReadsAll stableOrder walletLines 7 1 1 (by decide) walletDb := by
  rintro ⟨n, items, hitems, hperm, _⟩
  have hread : follow (fetchPage stableOrder walletLines 7 1 (by decide) walletDb) 3 none =
      some [toItem ⟨2, 1, 200, 2000, .entryRefund, "Refund — A"⟩,
        toItem ⟨1, 1, 500, 1000, .deposit, "Wallet deposit"⟩] := by decide
  rw [follow_unique hitems hread] at hperm
  exact absurd hperm.length_eq (by decide)

end Sample

end WalletPages
end FootballIQ
