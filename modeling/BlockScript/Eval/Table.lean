/-! Tables from names to entries. A name has at most one place in a table: a later entry replaces
the earlier one. -/
namespace BlockScript

structure Table (α : Type) where
  entries : List (String × α)

namespace Table

variable {α : Type}

def empty : Table α := ⟨[]⟩

instance : Inhabited (Table α) := ⟨empty⟩

def findEntry (name : String) : List (String × α) → Option α
  | [] => none
  | entry :: rest => if name = entry.1 then some entry.2 else findEntry name rest

def find? (table : Table α) (name : String) : Option α := findEntry name table.entries

def contains (table : Table α) (name : String) : Bool := (table.find? name).isSome

def insertEntry (name : String) (value : α) : List (String × α) → List (String × α)
  | [] => [(name,value)]
  | entry :: rest =>
    if name = entry.1 then (name,value) :: rest else entry :: insertEntry name value rest

def insert (table : Table α) (name : String) (value : α) : Table α :=
  ⟨insertEntry name value table.entries⟩

@[simp] theorem find?_empty (name : String) : (empty : Table α).find? name = none := rfl

theorem findEntry_insertEntry (name other : String) (value : α) (entries : List (String × α)) :
    findEntry other (insertEntry name value entries) =
      if other = name then some value else findEntry other entries := by
  induction entries with
  | nil => simp [insertEntry,findEntry]
  | cons entry rest ih =>
    by_cases here : name = entry.1
    · by_cases same : other = name <;> simp_all [insertEntry,findEntry]
    · by_cases same : other = name <;> simp_all [insertEntry,findEntry]

theorem find?_insert (table : Table α) (name other : String) (value : α) :
    (table.insert name value).find? other =
      if other = name then some value else table.find? other :=
  findEntry_insertEntry name other value table.entries

@[simp] theorem find?_insert_self (table : Table α) (name : String) (value : α) :
    (table.insert name value).find? name = some value := by simp [find?_insert]

theorem find?_insert_of_ne (table : Table α) {name other : String} (value : α)
    (apart : other ≠ name) : (table.insert name value).find? other = table.find? other := by
  simp [find?_insert,apart]

end Table

end BlockScript
