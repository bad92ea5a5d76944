import Mathlib.Data.String.Basic
import PaymentService.Services.Payment
import PaymentService.Table.Paging

/-!
# The list of a user's transactions

`findTransactionsByUserRefId` asks for one page of the transactions that are not pending, newest
first, with their logs. A `find` that joins a relation and takes a page makes two queries. The first
is for the distinct ids of the page, in the order that is asked for and, where that leaves them equal,
in the order of the ids. The second is for the rows with these ids, in the order that is asked for
only: the database is free to list transactions of the same time as it likes, and as it likes the next
time. So a page can be listed in more than one way, but what is on it is settled, and a user who reads
the list page by page sees every transaction once.
-/

namespace PaymentService

open Paging

/-! ## Pages -/

section Order

variable {κ : Type} [LinearOrder κ]

/-- `ORDER BY created_at DESC`, and rows of the same time in the order of what their ids have. -/
def newestFirst (second : String → κ) (row other : TransactionStatus) : Bool :=
  other.createdAt < row.createdAt ||
    (row.createdAt = other.createdAt && second row.id ≤ second other.id)

end Order

/-- The rows whose ids the first query returns, `ORDER BY created_at DESC, id ASC`; a limit of 0 is
none. -/
def Db.pageOfUser (db : Db) (userRefId : String) (offset limit : ℕ) : List TransactionStatus :=
  let rows := ((transactionsOfUser db userRefId).mergeSort (newestFirst id)).drop offset
  if limit = 0 then rows else rows.take limit

/-- A transaction with the relation `transactionLogs`. -/
def Db.withLogs (db : Db) (row : TransactionStatus) : TransactionStatus × List TransactionLog :=
  (row, db.attached row.id)

/-- One page, as the second query lists it; `tie` is how the database comes to list rows of the same
time. -/
def findTransactionsByUserRefId (db : Db) (tie : String → ℕ) (userRefId : String) (offset : ℕ := 0)
    (limit : ℕ := 10) : List (TransactionStatus × List TransactionLog) :=
  ((db.pageOfUser userRefId offset limit).mergeSort (newestFirst tie)).map db.withLogs

namespace Shop

end Shop

end PaymentService
