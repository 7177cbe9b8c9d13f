import ImportFence.Sorted
import ImportFence.Text.Split
import ImportFence.Text.WhiteSpace

/-!
# Tags

Tags are names that differ by more than surrounding white space. A table numbers the tags of a run
in the order in which they are first seen; sets of tags are ascending lists of these numbers.
-/

namespace ImportFence

/-- The number of a tag in its table. -/
abbrev TagId := Nat

namespace TagId

/-- The greatest number of a tag: numbers have 32 bits. -/
def last : TagId := 0xffffffff

/-- The number of the tag at a place of its table. The places from `last` on share one number. -/
def ofPlace (i : Nat) : TagId :=
  min i last

end TagId

/-- Why a text is no tag. -/
inductive TagError where
  | blank
  deriving DecidableEq

namespace TagError

def message : TagError → String
  | .blank => "tag must not be empty or whitespace"

end TagError

/-- The tags of a run, trimmed: the names in the order in which they were first seen, and the
number of each name. -/
structure TagTable where
  names : List String
  ids : List (String × TagId)
  deriving DecidableEq, Inhabited

namespace TagTable

/-- The table without tags. -/
def empty : TagTable := ⟨[], []⟩

def size (t : TagTable) : Nat :=
  t.names.length

def get? (t : TagTable) (raw : String) : Option TagId :=
  t.ids.lookup (Text.trim raw)

/-- The number of a tag, and the table with it. A tag that the table has keeps its number, a new
one gets the next. -/
def intern (t : TagTable) (raw : String) : Except TagError (TagId × TagTable) :=
  if Text.trim raw = "" then .error .blank
  else
    match t.get? raw with
    | some id => .ok (id, t)
    | none =>
      let id := TagId.ofPlace t.size
      .ok (id, ⟨t.names ++ [Text.trim raw], (Text.trim raw, id) :: t.ids⟩)

/-- The name of a tag; a number that the table does not have is shown as `?`. -/
def name (t : TagTable) (id : TagId) : String :=
  t.names[id]?.getD "?"

end TagTable

/-- A set of tags: their numbers, strictly ascending. -/
structure TagSet where
  ids : List TagId
  deriving DecidableEq, Inhabited

namespace TagSet

def empty : TagSet := ⟨[]⟩

/-- Looks for a number in an ascending list, up to the first that is not smaller. -/
def searchAscending (x : TagId) : List TagId → Bool
  | [] => false
  | y :: ys => if y < x then searchAscending x ys else x == y

/-- Whether two ascending lists have a common member, in one pass over both. -/
def meetAscending : List TagId → List TagId → Bool
  | [], _ => false
  | x :: xs, ys =>
    match ys.dropWhile (· < x) with
    | [] => false
    | y :: rest => x == y || meetAscending xs (y :: rest)

def insert (s : TagSet) (id : TagId) : TagSet :=
  ⟨Sorted.insert compare id s.ids⟩

/-- Leaves out each number that repeats the one in front of it. -/
def dropRepeats : List TagId → List TagId
  | x :: y :: rest => if x = y then dropRepeats (y :: rest) else x :: dropRepeats (y :: rest)
  | ids => ids

def ofList (ids : List TagId) : TagSet :=
  ⟨dropRepeats (Sorted.sort compare ids)⟩

def union (s other : TagSet) : TagSet :=
  other.ids.foldl insert s

def contains (s : TagSet) (id : TagId) : Bool :=
  searchAscending id s.ids

def intersects (s other : TagSet) : Bool :=
  meetAscending s.ids other.ids

end TagSet

/-- A set shown as `[a, b]`, the names in ascending order. -/
def TagTable.display (t : TagTable) (s : TagSet) : String :=
  "[" ++ Text.join ", " (Sorted.sort compare (s.ids.map t.name)) ++ "]"

end ImportFence
