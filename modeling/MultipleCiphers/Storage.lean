import MultipleCiphers.Codec

/-!
# What the key operations ask of the B-tree and the pager

The key operations of the codec stand on the storage layer of SQLite: they ask it for page size
and reserved bytes, change these, rewrite pages in a transaction or run a VACUUM. `StorageOps σ π`
lists these calls for a storage state `π`; nothing is assumed about what they do or return, so a
statement for every `StorageOps` covers every behaviour of the storage layer, every pattern of
failures included. Where a question is about the storage layer itself, a file of its own gives a
model of the part it needs and fills in the record.

A call that reads or writes pages goes through the codec that is attached to the database file at
that moment. It is the first argument of these calls.

## Main definitions

* `StorageOps` — the calls.
* `mcAdjustBtree` — the one way the key operations change page size and reserved bytes directly.
* `rewritePages`, `rewriteDatabase` — the loop over all pages, and the transaction around it.
-/

namespace MultipleCiphers

/-- The type of a call that goes through the codec of the database file. -/
abbrev StorageCall (σ π : Type) := Option (Codec σ) → π → Env → ResultCode × π × Env

/-- The calls of the storage layer that key operations make. -/
structure StorageOps (σ π : Type) where
  /-- `sqlite3BtreeGetPageSize`. -/
  btreeGetPageSize : π → ℤ
  /-- `sqlite3BtreeGetReserveNoMutex`. -/
  btreeGetReserve : π → ℤ
  /-- `pager->pageSize`. -/
  pagerPageSize : π → ℤ
  /-- `pager->nReserve`. -/
  pagerReserve : π → ℤ
  /-- `pagerUseWal`. -/
  pagerUseWal : π → Bool
  /-- `mcReadDatabaseHeader`: the first sixteen bytes of the database file, if it has them. -/
  readDatabaseHeader : π → Option Bytes
  /-- Clearing the flag `BTS_PAGESIZE_FIXED`. -/
  clearPageSizeFixed : π → π
  /-- `sqlite3BtreeSetPageSize pageSize nReserve`, without fixing the page size. -/
  btreeSetPageSize : ℤ → ℤ → π → Env → ResultCode × π × Env
  /-- `sqlite3mcRunVacuumForRekey`, with the reserved bytes of the new pages. -/
  runVacuumForRekey : ℤ → StorageCall σ π
  /-- `sqlite3BtreeBeginTrans` for a write transaction. -/
  btreeBeginTrans : StorageCall σ π
  /-- `sqlite3PagerPagecount`. -/
  pagerPagecount : π → ℕ
  /-- `sqlite3PagerGet`. -/
  pagerGet : ℕ → StorageCall σ π
  /-- `sqlite3PagerWrite`. -/
  pagerWrite : ℕ → StorageCall σ π
  /-- `sqlite3BtreeCommit`. -/
  btreeCommit : StorageCall σ π
  /-- `sqlite3BtreeRollback`. Its callers do not look at the result code. -/
  btreeRollback : StorageCall σ π

section Operations

variable {σ π : Type} (ops : StorageOps σ π)

/-- `mcAdjustBtree`. A page size that is not positive stands for the present one, and negative
reserved bytes for none; a legacy cipher may change a page size that is fixed. -/
def mcAdjustBtree (nPageSize nReserved isLegacy : ℤ) (store : π) (env : Env) :
    ResultCode × π × Env :=
  let pageSize := if nPageSize > 0 then nPageSize else ops.btreeGetPageSize store
  if ops.pagerPageSize store ≠ pageSize ∨ ops.pagerReserve store ≠ nReserved then
    let reserved := if nReserved ≥ 0 then nReserved else 0
    let store := if isLegacy ≠ 0 then ops.clearPageSizeFixed store else store
    ops.btreeSetPageSize pageSize reserved store env
  else (.ok, store, env)

/-- `WX_PAGER_MJ_PGNO`: the page that is never written, since the lock bytes are on it. -/
def pagerMjPgno (pageSize : ℤ) : ℕ := 0x40000000 / pageSize.toNat + 1

/-- The loop over the pages from `n` on, `fuel` of them: each is loaded and marked as changed, so
that it will be written. -/
def rewritePages (codec : Option (Codec σ)) (nSkip : ℕ) :
    ℕ → ℕ → π → Env → ResultCode × π × Env
  | 0, _, store, env => (.ok, store, env)
  | fuel + 1, n, store, env =>
    if n = nSkip then rewritePages codec nSkip fuel (n + 1) store env
    else
      let (rc, store, env) := ops.pagerGet n codec store env
      if rc = .ok then
        let (rc, store, env) := ops.pagerWrite n codec store env
        if rc = .ok then rewritePages codec nSkip fuel (n + 1) store env
        else (rc, store, env)
      else (rc, store, env)

/-- The loop in a transaction of its own, which is rolled back if anything fails. -/
def rewriteDatabase (codec : Option (Codec σ)) (store : π) (env : Env) : ResultCode × π × Env :=
  let (rc, store, env) := ops.btreeBeginTrans codec store env
  let (rc, store, env) :=
    if rc = .ok then
      rewritePages ops codec (pagerMjPgno (ops.btreeGetPageSize store)) (ops.pagerPagecount store) 1
        store env
    else (rc, store, env)
  let (rc, store, env) :=
    if rc = .ok then ops.btreeCommit codec store env else (rc, store, env)
  if rc = .ok then (rc, store, env)
  else
    let (_, store, env) := ops.btreeRollback codec store env
    (rc, store, env)

end Operations

end MultipleCiphers
