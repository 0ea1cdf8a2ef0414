/-!
# Tables

A table maps names to entries. It keeps the order in which names first came
up and holds each name once.
-/

namespace GraphMarkup.Schema

/-- Entries by name. -/
abbrev Table (α : Type) :=
  List (String × α)

namespace Table

variable {α : Type}

/-- The entry of a name. -/
def find? (table : Table α) (name : String) : Option α :=
  table.lookup name

/-- Change the entry of a name, which is `first` if there is none yet. -/
def update (table : Table α) (name : String) (first : α) (change : α → α) : Table α :=
  match table with
  | [] => [(name, change first)]
  | (key, entry) :: rest =>
      if key = name then (key, change entry) :: rest
      else (key, entry) :: update rest name first change

/-- Give a name an entry unless it has one. -/
def insertNew (table : Table α) (name : String) (entry : α) : Table α :=
  table.update name entry id

end Table

end GraphMarkup.Schema
