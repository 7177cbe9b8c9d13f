/-!
# Ascending lists

Sets as strictly ascending lists under a comparison: one list per set, whatever the order in which
its members came.
-/

namespace ImportFence.Sorted

/-- Puts a member at its place in an ascending list, unless it is there. -/
def insert {α : Type} (cmp : α → α → Ordering) (x : α) : List α → List α
  | [] => [x]
  | y :: ys =>
    match cmp x y with
    | .lt => x :: y :: ys
    | .eq => y :: ys
    | .gt => y :: insert cmp x ys

def ofList {α : Type} (cmp : α → α → Ordering) (xs : List α) : List α :=
  xs.foldl (fun set x => insert cmp x set) []

/-- A list in ascending order; equal members keep their order. -/
def sort {α : Type} (cmp : α → α → Ordering) (xs : List α) : List α :=
  xs.mergeSort fun a b => (cmp a b).isLE

end ImportFence.Sorted
