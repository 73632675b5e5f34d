import SmartLock.Lib.Machine

/-!
# Write-behind ledgers

What a write-behind buffer is for, over any type of entries: every entry is appended once and
stored once, in the order of the appends. A `Ledger` keeps the whole log, the entries stored so
far and those still waiting, and carries the fact that the log is the one followed by the other.
Its two moves append an entry and store the oldest waiting ones.
-/

universe u

/-- The entries ever appended, those stored and those still waiting. -/
structure Ledger (α : Type u) where
  log : List α
  stored : List α
  waiting : List α
  split : stored ++ waiting = log

namespace Ledger

variable {α : Type u}

/-- No entry yet. -/
def empty : Ledger α := ⟨[], [], [], rfl⟩

/-- A new entry waits behind the others. -/
def append (l : Ledger α) (x : α) : Ledger α where
  log := l.log ++ [x]
  stored := l.stored
  waiting := l.waiting ++ [x]
  split := by rw [← List.append_assoc, l.split]

/-- The `n` oldest waiting entries are stored. -/
def store (l : Ledger α) (n : ℕ) : Ledger α where
  log := l.log
  stored := l.stored ++ l.waiting.take n
  waiting := l.waiting.drop n
  split := by rw [List.append_assoc, List.take_append_drop, l.split]

/-- The moves of a ledger. -/
inductive Move (α : Type u)
  | append (x : α)
  | store (n : ℕ)

/-- A ledger accepts both moves in every state. -/
def machine : Machine (Ledger α) (Move α) where
  step l
    | .append x => some (l.append x)
    | .store n => some (l.store n)

/-! ## Entries that cannot be stored -/

variable {l : Ledger α} {p : α → Bool}

/-- When only entries in `p` are stored, the stored ones stand before the first that is not. -/
theorem stored_prefix (h : ∀ x ∈ l.stored, p x = true) : l.stored <+: l.log.takeWhile p := by
  rw [← l.split, List.takeWhile_append_of_pos h]
  exact List.prefix_append _ _

/-- The first entry that is not in `p` still waits, with all that were appended behind it. -/
theorem dropWhile_suffix (h : ∀ x ∈ l.stored, p x = true) : l.log.dropWhile p <:+ l.waiting := by
  rw [← l.split, List.dropWhile_append_of_pos h]
  exact List.dropWhile_suffix p

end Ledger
