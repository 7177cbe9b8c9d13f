import ImportFence.Path.Basic

/-!
# Ancestors of a path

The directories that a path passes through as it is written, innermost first. The file tree is not
asked: behind `a/..` stands `a`.
-/

namespace ImportFence.Path

/-- What a path starts with before its first component: the root's slash, or a leading `.`. -/
def front (p : Path) : String :=
  if p.isAbsolute then "/" else if p.components.head? = some .current then "." else ""

/-- The texts between the slashes behind the front, last one first. -/
def pieces (p : Path) : List String :=
  (Text.split '/' (String.ofList (p.text.toList.drop p.front.length))).reverse

/-- Whether a text between two slashes leads nowhere. -/
def isIdle (piece : String) : Bool :=
  piece = "" || piece = "."

/-- The path without its last component, as it is written up to there. -/
def parent? (p : Path) : Option Path :=
  match p.pieces.dropWhile isIdle with
  | _ :: rest => some ⟨p.front ++ Text.join "/" (rest.dropWhile isIdle).reverse⟩
  | [] => if p.front = "." then some ⟨""⟩ else none

/-- A path and at most `n` paths around it. -/
def ancestorsWithin : Nat → Path → List Path
  | 0, p => [p]
  | n + 1, p => p :: p.parent?.elim [] (ancestorsWithin n)

/-- A path and all paths around it. Each has fewer components than the one before. -/
def ancestors (p : Path) : List Path :=
  ancestorsWithin p.components.length p

end ImportFence.Path
