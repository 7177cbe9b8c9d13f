import ImportFence.Source.Imports
import Mathlib.Tactic.Common

/-!
# Walks over statements

The statements of a source are visited off a stack, the last one first. What the visits find is what
a recursive walk in the order of the source picks out of the statements, taken from its end.
-/

namespace ImportFence.Source

variable {α σ : Type}

mutual

/-- What is picked out of a statement and those in its blocks, in the order of the source. Without the
imports for type checkers, only the further branches of a guard are looked at. -/
def picked (ignoreTypeChecking : Bool) (pick : Statement → Option α) : Statement → List α
  | .choice condition consequence alternative =>
    if ignoreTypeChecking && isTypeCheckingGuard condition then
      pickedFrom ignoreTypeChecking pick alternative
    else
      pickedFrom ignoreTypeChecking pick consequence ++
        pickedFrom ignoreTypeChecking pick alternative
  | .compound body => pickedFrom ignoreTypeChecking pick body
  | s => (pick s).toList

def pickedFrom (ignoreTypeChecking : Bool) (pick : Statement → Option α) :
    List Statement → List α
  | [] => []
  | s :: rest => picked ignoreTypeChecking pick s ++ pickedFrom ignoreTypeChecking pick rest

end

variable {ignoreTypeChecking : Bool} {pick : Statement → Option α}

lemma pickedFrom_eq_flatMap (ss : List Statement) :
    pickedFrom ignoreTypeChecking pick ss = ss.flatMap (picked ignoreTypeChecking pick) := by
  induction ss with
  | nil => rfl
  | cons s ss ih => rw [pickedFrom, ih, List.flatMap_cons]

/-- Statements with blocks are not picked. -/
def PicksLeaves (pick : Statement → Option α) : Prop :=
  (∀ condition consequence alternative, pick (.choice condition consequence alternative) = none) ∧
    ∀ body, pick (.compound body) = none

/-- What a statement holds is itself, or what the statements hold that are entered from it. -/
lemma picked_cases (ignoreTypeChecking : Bool) (hpick : PicksLeaves pick) (s : Statement) :
    pick s = none ∧ picked ignoreTypeChecking pick s =
      (s.entered ignoreTypeChecking).flatMap (picked ignoreTypeChecking pick) ∨
    s.entered ignoreTypeChecking = [] ∧ picked ignoreTypeChecking pick s = (pick s).toList := by
  cases s with
  | choice condition consequence alternative =>
    refine Or.inl ⟨hpick.1 _ _ _, ?_⟩
    rw [picked, Statement.entered]
    split
    · exact pickedFrom_eq_flatMap _
    · rw [pickedFrom_eq_flatMap, pickedFrom_eq_flatMap, List.flatMap_append]
  | compound body =>
    refine Or.inl ⟨hpick.2 _, ?_⟩
    rw [picked, Statement.entered, pickedFrom_eq_flatMap]
  | _ => exact Or.inr ⟨rfl, rfl⟩

/-- What the statements on a stack hold is found from the end of each one to its beginning. -/
theorem walk_eq_foldl (hpick : PicksLeaves pick) {visit : σ → Statement → σ} {add : σ → α → σ}
    (hvisit : ∀ found s, visit found s = (pick s).elim found (add found)) (stack : List Statement)
    (found : σ) : walk ignoreTypeChecking visit stack found =
      (stack.flatMap fun s => (picked ignoreTypeChecking pick s).reverse).foldl add found := by
  fun_induction walk ignoreTypeChecking visit stack found with
  | case1 => rfl
  | case2 s stack found ih =>
    rw [ih, List.flatMap_append, List.flatMap_cons, List.foldl_append, List.foldl_append, hvisit]
    congr 1
    -- either the statement only leads to others, which are now on top of the stack, or to none
    rcases picked_cases ignoreTypeChecking hpick s with
      ⟨hnone, hpicked⟩ | ⟨hentered, hpicked⟩
    · rw [hnone, hpicked, List.reverse_flatMap]
      rfl
    · rw [hentered, hpicked]
      cases pick s <;> rfl

/-! ### Imports and comments -/

def Statement.importing? : Statement → Option ImportStatement
  | .importing s => some s
  | _ => none

def Statement.comment? : Statement → Option Comment
  | .comment c => some c
  | _ => none

/-- The import statements in a statement, in the order of the source. -/
def importsOf (ignoreTypeChecking : Bool) : Statement → List ImportStatement :=
  picked ignoreTypeChecking Statement.importing?

def importsOfAll (ignoreTypeChecking : Bool) : List Statement → List ImportStatement :=
  pickedFrom ignoreTypeChecking Statement.importing?

lemma importsOfAll_cons (s : Statement) (rest : List Statement) :
    importsOfAll ignoreTypeChecking (s :: rest) =
      importsOf ignoreTypeChecking s ++ importsOfAll ignoreTypeChecking rest := rfl

lemma importsOf_choice (condition : String) (consequence alternative : List Statement) :
    importsOf ignoreTypeChecking (.choice condition consequence alternative) =
      if ignoreTypeChecking && isTypeCheckingGuard condition then
        importsOfAll ignoreTypeChecking alternative
      else importsOfAll ignoreTypeChecking consequence ++
        importsOfAll ignoreTypeChecking alternative := rfl

/-- The comments in a statement, in the order of the source. -/
def commentsOf : Statement → List Comment :=
  picked false Statement.comment?

def commentsOfAll : List Statement → List Comment :=
  pickedFrom false Statement.comment?

def Tree.comments (tree : Tree) : List Comment :=
  commentsOf tree.root

/-- The imports that a statement makes. A directive on any of its lines covers all of them. -/
def ImportStatement.imports (suppressed : SuppressedLines) (s : ImportStatement) : List Import :=
  let directive := suppressed.find? s.start.line s.lastLine
  s.request.records.map fun (level, module, names) => {
    line := s.start.line
    column := s.start.column
    level, module, names
    suppressed := directive.isSome
    reason := directive.bind (·.reason) }

lemma collectImports_eq (suppressed : SuppressedLines) (imports : List Import) (s : Statement) :
    collectImports suppressed imports s =
      s.importing?.elim imports fun s => imports ++ s.imports suppressed := by
  cases s with
  | importing s =>
    simp only [collectImports, Statement.importing?, Option.elim_some, ImportStatement.imports]
    cases hdirective : suppressed.find? s.start.line s.lastLine with
    | none => simp [ImportStatement.found]
    | some d =>
      split
      · next hlength =>
        have hnone : s.found = [] := by simpa using hlength
        have hrecords : s.request.records = [] := List.map_eq_nil_iff.mp hnone
        simp [hnone, hrecords]
      · simp [ImportStatement.found, Import.suppress]
  | _ => rfl

/-- The import statements are found from the last one to the first. -/
theorem walk_collectImports (ignoreTypeChecking : Bool) (suppressed : SuppressedLines)
    (root : Statement) : walk ignoreTypeChecking (collectImports suppressed) [root] [] =
      (importsOf ignoreTypeChecking root).reverse.flatMap (·.imports suppressed) := by
  rw [walk_eq_foldl ⟨fun _ _ _ => rfl, fun _ => rfl⟩ (collectImports_eq suppressed),
    List.flatMap_singleton, List.flatMap_eq_foldl]
  rfl

/-- Comments are recorded from the last one to the first. -/
theorem suppressedLines_eq_foldl (source : List Char) (root : Statement) :
    suppressedLines source root = (commentsOf root).reverse.foldl (fun lines c =>
      (Directive.ofComment? c.text).elim lines
        (lines.record c.start.line (startsItsLine source c.start))) SuppressedLines.empty := by
  have hvisit : ∀ lines s, recordComment source lines s = s.comment?.elim lines fun c =>
      (Directive.ofComment? c.text).elim lines
        (lines.record c.start.line (startsItsLine source c.start)) := by
    intro lines s
    cases s with
    | comment c =>
      simp only [recordComment, Statement.comment?, Option.elim_some]
      cases Directive.ofComment? c.text <;> rfl
    | _ => rfl
  rw [suppressedLines, walk_eq_foldl ⟨fun _ _ _ => rfl, fun _ => rfl⟩ hvisit,
    List.flatMap_singleton]
  rfl

end ImportFence.Source
