/-!
# Tables and sorted lists

A `Table` maps keys to values.  It is a list of entries in which the first entry of a key counts, so
that look-ups evaluate by plain recursion; the operations below keep one entry per key.

Seen through `get?`, each operation is what its name says: `get?_insert`, `get?_erase`.

**Sorting.**  `sortBy` puts entries in a given order.  It inserts one after the other, so that it
evaluates by plain recursion as well.
-/

namespace Nameserver

section Sorting

variable {α : Type} (le : α → α → Bool)

/-- Puts an element in its place in a list that is in the order `le`. -/
def insertBy (a : α) : List α → List α
  | [] => [a]
  | b :: bs => if le a b then a :: b :: bs else b :: insertBy a bs

/-- The elements in the order `le`. -/
def sortBy (as : List α) : List α := as.foldr (insertBy le) []

end Sorting

/-- A finite map from keys to values. -/
abbrev Table (α β : Type) := List (α × β)

namespace Table

variable {α β : Type} [DecidableEq α]

/-- The value of a key. -/
def get? (t : Table α β) (k : α) : Option β :=
  match t with
  | [] => none
  | (l, v) :: t => if k = l then some v else get? t k

/-- The table without an entry for the key. -/
def erase (t : Table α β) (k : α) : Table α β := t.filter fun e => e.1 ≠ k

/-- The table with this value for the key. -/
def insert (t : Table α β) (k : α) (v : β) : Table α β := (k, v) :: erase t k

/-- The table of these entries, of which the last one of a key counts. -/
def ofEntries (entries : List (α × β)) : Table α β := entries.foldl (fun t e => insert t e.1 e.2) []

/-- An empty table has no values. -/
@[simp, grind =] theorem get?_nil (k : α) : get? ([] : Table α β) k = none := rfl

/-- The first entry of a key counts. -/
@[simp, grind =] theorem get?_cons (e : α × β) (t : Table α β) (k : α) :
    get? (e :: t) k = if k = e.1 then some e.2 else get? t k := rfl

/-- What is erased is not found, and all else is found as before. -/
@[simp, grind =] theorem get?_erase (t : Table α β) (k l : α) :
    get? (erase t k) l = if l = k then none else get? t l := by
  induction t with
  | nil => simp [erase]
  | cons e t ih =>
    simp only [erase, ne_eq, decide_not, List.filter_cons] at ih ⊢
    by_cases h : e.1 = k <;> by_cases hl : l = e.1 <;> simp_all

/-- What was inserted last is found, and all else is found as before. -/
@[simp, grind =] theorem get?_insert (t : Table α β) (k l : α) (v : β) :
    get? (insert t k v) l = if l = k then some v else get? t l := by
  by_cases h : l = k <;> simp [insert, h]

end Table

end Nameserver
