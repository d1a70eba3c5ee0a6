/-!
# Tag options

A custom tag yields a bag of key and value pairs. Bags and the bags of all tags of an entity keep
the order in which their keys first came.
-/

namespace ServiceLoom

/-- Put a value under a key: in place if the key is there, at the end if not. -/
def putEntry {α : Type} (key : String) (f : Option α → α) :
    List (String × α) → List (String × α)
  | [] => [(key, f none)]
  | (k, v) :: rest => if k = key then (k, f (some v)) :: rest else (k, v) :: putEntry key f rest

theorem keys_putEntry {α : Type} (key : String) (f : Option α → α) (entries : List (String × α)) :
    (putEntry key f entries).map Prod.fst =
      if key ∈ entries.map Prod.fst then entries.map Prod.fst
      else entries.map Prod.fst ++ [key] := by
  induction entries with
  | nil => rfl
  | cons e rest ih =>
    obtain ⟨k, v⟩ := e
    unfold putEntry
    by_cases h : k = key
    · simp [h]
    · simp only [if_neg h, List.map_cons, ih, List.mem_cons]
      by_cases hm : key ∈ rest.map Prod.fst
      · simp [hm]
      · simp [hm, Ne.symm h]

theorem lookup_putEntry_self {α : Type} (key : String) (f : Option α → α)
    (entries : List (String × α)) :
    (putEntry key f entries).lookup key = some (f (entries.lookup key)) := by
  induction entries with
  | nil => simp [putEntry]
  | cons e rest ih =>
    obtain ⟨k, v⟩ := e
    unfold putEntry
    by_cases h : k = key
    · simp [h]
    · have h' : (key == k) = false := by simpa using Ne.symm h
      simp [h, List.lookup_cons, h', ih]

theorem lookup_putEntry_of_ne {α : Type} {key other : String} (f : Option α → α)
    (entries : List (String × α)) (hne : other ≠ key) :
    (putEntry key f entries).lookup other = entries.lookup other := by
  have hkey : (other == key) = false := by simpa using hne
  induction entries with
  | nil => simp [putEntry, List.lookup_cons, hkey]
  | cons e rest ih =>
    obtain ⟨k, v⟩ := e
    unfold putEntry
    by_cases h : k = key
    · subst h
      simp [List.lookup_cons, hkey]
    · simp [h, List.lookup_cons, ih]

structure OptionBag where
  entries : List (String × String) := []
  deriving DecidableEq, Repr

namespace OptionBag

def set (bag : OptionBag) (key value : String) : OptionBag :=
  ⟨putEntry key (fun _ => value) bag.entries⟩

def get? (bag : OptionBag) (key : String) : Option String := bag.entries.lookup key

def isEmpty (bag : OptionBag) : Bool := bag.entries.isEmpty

def size (bag : OptionBag) : Nat := bag.entries.length

def setAll (bag : OptionBag) (pairs : List (String × String)) : OptionBag :=
  pairs.foldl (fun bag (key, value) => bag.set key value) bag

def extend (bag other : OptionBag) : OptionBag := bag.setAll other.entries

def ofList (pairs : List (String × String)) : OptionBag := setAll {} pairs

end OptionBag

structure TagOptions where
  tags : List (String × OptionBag) := []
  deriving DecidableEq, Repr

namespace TagOptions

/-- Add a bag under a tag. An empty bag changes nothing. -/
def merge (all : TagOptions) (tag : String) (bag : OptionBag) : TagOptions :=
  if bag.isEmpty then all
  else ⟨putEntry tag (fun | none => bag | some old => old.extend bag) all.tags⟩

def get? (all : TagOptions) (tag : String) : Option OptionBag := all.tags.lookup tag

def contains (all : TagOptions) (tag : String) : Bool := (all.get? tag).isSome

def isEmpty (all : TagOptions) : Bool := all.tags.isEmpty

end TagOptions

end ServiceLoom
