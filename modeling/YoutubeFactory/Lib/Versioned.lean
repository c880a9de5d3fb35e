import Mathlib.Init

/-!
# Rows with a version

A row is stored with a version that every write counts up.  A transaction keeps the
row as it read it, and writes it back only if the stored version is still the one it
read.  So what was read either is still what is stored, or is stale for good.
-/

structure Versioned (α : Type) where
  row : α
  version : Nat
deriving DecidableEq

namespace Versioned

variable {α : Type} {stored seen : Versioned α}

/-- The row after a write. -/
def write (stored : Versioned α) (row : α) : Versioned α := ⟨row, stored.version + 1⟩

@[simp] theorem row_write (stored : Versioned α) (row : α) : (stored.write row).row = row := rfl

@[simp] theorem version_write (stored : Versioned α) (row : α) :
    (stored.write row).version = stored.version + 1 := rfl

/-- `seen` was stored before, or still is. -/
structure Sees (stored seen : Versioned α) : Prop where
  version_le : seen.version ≤ stored.version
  row_eq : seen.version = stored.version → seen.row = stored.row

theorem Sees.refl (stored : Versioned α) : stored.Sees stored := ⟨Nat.le_refl _, fun _ => rfl⟩

/-- What was read before a write is stale after it. -/
theorem Sees.lt_write (h : stored.Sees seen) (row : α) :
    seen.version < (stored.write row).version :=
  Nat.lt_succ_of_le h.version_le

theorem Sees.write (h : stored.Sees seen) (row : α) : (stored.write row).Sees seen where
  version_le := Nat.le_of_lt (h.lt_write row)
  row_eq heq := absurd heq (Nat.ne_of_lt (h.lt_write row))

end Versioned
