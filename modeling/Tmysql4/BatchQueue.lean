import Mathlib.Data.List.Basic

/-! # The FIFO batch queue

The abstract queue behind a "push one, take all" container: `push` appends an element, `popAll`
takes everything that is pending as one batch.  The batches taken so far are recorded, so that
the whole history of pushes can be read off (`history`); no operation reorders, loses or
duplicates an element (`history_push`, `history_popAll`). -/

structure BatchQueue (α : Type*) where
  pending : List α := []
  batches : List (List α) := []
deriving DecidableEq, Repr

namespace BatchQueue

variable {α : Type*} (q : BatchQueue α) (a : α)

def push : BatchQueue α := { q with pending := q.pending ++ [a] }

def popAll : BatchQueue α := { pending := [], batches := q.batches ++ [q.pending] }

/-- Everything pushed so far: the batches in the order they were taken, then the rest. -/
def history : List α := q.batches.flatten ++ q.pending

@[simp] theorem pending_push : (q.push a).pending = q.pending ++ [a] := rfl
@[simp] theorem pending_popAll : q.popAll.pending = [] := rfl
@[simp] theorem batches_push : (q.push a).batches = q.batches := rfl
@[simp] theorem batches_popAll : q.popAll.batches = q.batches ++ [q.pending] := rfl

@[simp] theorem history_push : (q.push a).history = q.history ++ [a] := by
  simp [history]

@[simp] theorem history_popAll : q.popAll.history = q.history := by
  simp [history]

end BatchQueue
