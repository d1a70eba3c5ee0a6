import ServiceLoom.Toml.Value

/-!
# Tables under construction

A table is defined at most once: by its header, or by the dotted keys that reach into it. A table
that only occurs on the way to another header may still be defined. Dotted keys may pass through
such a table, and through the last table of a repeated header, into one of their own. What a key
holds as a value, inline tables and arrays included, is closed.
-/

namespace ServiceLoom.Toml

inductive Definition where
  /-- Only passed through so far. -/
  | passed
  | byHeader
  | byDots
  deriving DecidableEq, Repr

inductive Entry where
  | value (v : Toml)
  | table (definition : Definition) (entries : List (String × Entry))
  /-- The tables of repeated headers; the last one is being filled. -/
  | tables (items : List (List (String × Entry)))
  deriving Repr, Inhabited

abbrev Entries := List (String × Entry)

namespace Entries

def put (key : String) (entry : Entry) : Entries → Entries
  | [] => [(key, entry)]
  | (k, e) :: rest => if k = key then (k, entry) :: rest else (k, e) :: put key entry rest

def changeAt (change : Entries → Option Entries) : List String → Entries → Option Entries
  | [], entries => change entries
  | key :: keys, entries =>
    match entries.lookup key with
    | none => do
      let inner ← changeAt change keys []
      return put key (.table .passed inner) entries
    | some (.table definition inner) => do
      let inner ← changeAt change keys inner
      return put key (.table definition inner) entries
    | some (.tables items) =>
      match items.getLast? with
      | some last => do
        let last ← changeAt change keys last
        return put key (.tables (items.dropLast ++ [last])) entries
      | none => none
    | some (.value _) => none

def define (key : String) (entries : Entries) : Option Entries :=
  match entries.lookup key with
  | none => some (put key (.table .byHeader []) entries)
  | some (.table .passed inner) => some (put key (.table .byHeader inner) entries)
  | some _ => none

def addTable (key : String) (entries : Entries) : Option Entries :=
  match entries.lookup key with
  | none => some (put key (.tables [[]]) entries)
  | some (.tables items) => some (put key (.tables (items ++ [[]])) entries)
  | some _ => none

/-- Set a key that is new; the last but one of its parts names a table of dotted keys. -/
def assign (v : Toml) : List String → Entries → Option Entries
  | [], _ => none
  | [key], entries =>
    match entries.lookup key with
    | none => some (put key (.value v) entries)
    | some _ => none
  | key :: next :: keys, entries =>
    match entries.lookup key with
    | none => do
      let inner ← assign v (next :: keys) []
      return put key (.table .byDots inner) entries
    | some (.table definition inner) =>
      if definition = .byDots ∨ (definition = .passed ∧ !keys.isEmpty) then do
        let inner ← assign v (next :: keys) inner
        return put key (.table definition inner) entries
      else none
    | some (.tables items) =>
      match items.getLast? with
      | some last =>
        if keys.isEmpty then none
        else do
          let last ← assign v (next :: keys) last
          return put key (.tables (items.dropLast ++ [last])) entries
      | none => none
    | some (.value _) => none

end Entries

mutual

def Entry.toToml : Entry → Toml
  | .value v => v
  | .table _ entries => .table (finished entries)
  | .tables items => .array (finishedAll items)

def finished : List (String × Entry) → List (String × Toml)
  | [] => []
  | (key, entry) :: rest => (key, entry.toToml) :: finished rest

def finishedAll : List (List (String × Entry)) → List Toml
  | [] => []
  | entries :: rest => .table (finished entries) :: finishedAll rest

end

end ServiceLoom.Toml
