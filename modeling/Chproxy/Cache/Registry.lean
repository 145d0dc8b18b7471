/-
The in-memory transaction registry (`cache/transaction_registry_inmem.go`). Every method holds the lock
from its first access to its last, so it is one atomic operation on the table.
-/
import Chproxy.Utils.QueryText
import Mathlib.Logic.Function.Basic

namespace Chproxy.Cache

open Utils

inductive TransactionState
  | created
  | completed
  | failed
  | absent
  deriving DecidableEq, Repr

structure TransactionStatus where
  state : TransactionState
  failReason : Bytes := []
  deriving DecidableEq, Repr

/-- A record of the registry; times are in nanoseconds. -/
structure PendingEntry where
  deadline : Int
  state : TransactionState
  failedReason : Bytes := []
  deriving DecidableEq, Repr

/-- The table, by `Key.String()`, and how long a record is kept before and after its end. -/
structure InMemoryTransactionRegistry where
  pendingEntries : String → Option PendingEntry
  deadline : Int
  transactionEndedDeadline : Int

namespace InMemoryTransactionRegistry

variable (i : InMemoryTransactionRegistry) (now : Int) (k : String)

def insert (e : PendingEntry) : InMemoryTransactionRegistry :=
  { i with pendingEntries := Function.update i.pendingEntries k (some e) }

/-- A record that exists is left as it is. -/
def create : InMemoryTransactionRegistry :=
  match i.pendingEntries k with
  | some _ => i
  | none => i.insert k { deadline := now + i.deadline, state := .created }

/-- Both branches of the source, the record found and the record missing, end in this record. -/
def updateTransactionState (state : TransactionState) (failReason : Bytes) : InMemoryTransactionRegistry :=
  i.insert k ⟨now + i.transactionEndedDeadline, state, failReason⟩

def complete : InMemoryTransactionRegistry := i.updateTransactionState now k .completed []

def fail (reason : Bytes) : InMemoryTransactionRegistry := i.updateTransactionState now k .failed reason

def status : TransactionStatus :=
  match i.pendingEntries k with
  | some entry => ⟨entry.state, entry.failedReason⟩
  | none => { state := .absent }

/-- One round of `pendingEntriesCleaner` with the clock reading it took. -/
def clean (currentTime : Int) : InMemoryTransactionRegistry :=
  { i with pendingEntries := fun k => (i.pendingEntries k).filter fun pe => ¬ currentTime > pe.deadline }

/-! ## Records after an operation -/

variable {i now k} {j : String}

@[simp] theorem insert_self (e : PendingEntry) : (i.insert k e).pendingEntries k = some e := by simp [insert]

@[simp] theorem insert_of_ne (e : PendingEntry) (h : j ≠ k) : (i.insert k e).pendingEntries j = i.pendingEntries j := by
  simp [insert, h]

theorem create_of_some {e : PendingEntry} (h : i.pendingEntries k = some e) : i.create now k = i := by
  simp [create, h]

theorem create_of_none (h : i.pendingEntries k = none) :
    (i.create now k).pendingEntries k = some { deadline := now + i.deadline, state := .created } := by
  simp [create, h]

theorem create_of_ne (h : j ≠ k) : (i.create now k).pendingEntries j = i.pendingEntries j := by
  cases hk : i.pendingEntries k <;> simp [create, hk, h]

theorem clean_of_le {currentTime : Int} (h : ∀ e, i.pendingEntries k = some e → currentTime ≤ e.deadline) :
    (i.clean currentTime).pendingEntries k = i.pendingEntries k := by
  cases hk : i.pendingEntries k with
  | none => simp [clean, hk]
  | some e => simp [clean, hk, h e hk]

end InMemoryTransactionRegistry

end Chproxy.Cache
