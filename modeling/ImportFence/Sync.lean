import ImportFence.Check
import ImportFence.Config.Edit

/-!
# Synchronising constraints

Compares the declared dependencies between tags with those that the imports show, and says what to
add and what to remove. The comparison is of names, so that a declared tag that no package carries
can be removed too.
-/

namespace ImportFence

/-- A dependency of one tag on another. -/
structure TagPair where
  source : String
  allowed : String
  deriving DecidableEq, Inhabited

namespace TagPair

/-- By source, then by allowed tag. -/
def compare (a b : TagPair) : Ordering :=
  compareLex (compareOn (·.source)) (compareOn (·.allowed)) a b

def text (p : TagPair) : String :=
  p.source ++ " -> " ++ p.allowed

end TagPair

/-- Dependencies to declare and to drop. -/
structure Patch where
  additions : List TagPair
  prunes : List TagPair
  deriving DecidableEq, Inhabited

namespace Patch

def isEmpty (p : Patch) : Bool :=
  p.additions.isEmpty && p.prunes.isEmpty

/-- The configuration after the additions and then the removals. -/
def apply (p : Patch) (c : Config) : Config :=
  let added := p.additions.foldl (fun c t => c.addDependencies t.source [t.allowed]) c
  p.prunes.foldl (fun c t => c.removeDependency t.source t.allowed) added

def lines (p : Patch) : List String :=
  p.additions.map (fun t => "+ " ++ t.text) ++ p.prunes.map (fun t => "- " ++ t.text)

end Patch

def TagTable.pairs (t : TagTable) (source target : TagSet) : List TagPair :=
  source.ids.flatMap fun s => target.ids.map fun a => ⟨t.name s, t.name a⟩

/-- The pairs that constraints declare, trimmed. -/
def declaredPairs (constraints : List Constraint) : List TagPair :=
  constraints.flatMap fun c => c.dependsOn.map fun d => ⟨Text.trim c.tag, Text.trim d⟩

def observedPairs (graph : Graph) (tree : PackageTree) : Except CheckError (List TagPair) := do
  let pairs ← graph.activeEdges.mapM fun e => do
    let (source, target) ← tree.ends e
    return tree.tags.pairs source.tags target.tags
  return pairs.flatten

/-- The changes after which the declared pairs are the observed ones, or, without pruning, at least
include them. -/
def sync (graph : Graph) (tree : PackageTree) (declared : List Constraint) (prune : Bool) :
    Except CheckError Patch := do
  let observed ← observedPairs graph tree
  let declared := declaredPairs declared
  return {
    additions := Sorted.ofList TagPair.compare (observed.filter fun p => !declared.contains p)
    prunes :=
      if prune then Sorted.ofList TagPair.compare (declared.filter fun p => !observed.contains p)
      else [] }

end ImportFence
