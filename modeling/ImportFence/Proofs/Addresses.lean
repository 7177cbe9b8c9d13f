import ImportFence.Proofs.StatementWalk
import Mathlib.Data.List.Nodup

/-!
# Addresses of statements

An address leads from a statement down to one inside it, and tells for each choice on the way which
of its branches is entered. A statement is guarded if some choice on its way has a condition that
only holds for type checkers and is entered by its body. The walk in the order of the source finds
the import statements at all addresses; without the imports for type checkers, at those that are not
guarded.
-/

namespace ImportFence.Source

/-- A step from a statement to one directly inside it, given by the block and the place in it. -/
inductive Step where
  | body (place : Nat)
  | consequence (place : Nat)
  | alternative (place : Nat)
  deriving DecidableEq

namespace Statement

def child? : Statement → Step → Option Statement
  | .compound body, .body place => body[place]?
  | .choice _ consequence _, .consequence place => consequence[place]?
  | .choice _ _ alternative, .alternative place => alternative[place]?
  | _, _ => none

def at? : Statement → List Step → Option Statement
  | s, [] => some s
  | s, step :: rest => (s.child? step).bind (·.at? rest)

/-- The address leads through the body of a choice whose condition only holds for type checkers. The
further branches of that choice are not guarded by it. -/
def Guarded (root : Statement) (address : List Step) : Prop :=
  ∃ front place rest condition consequence alternative,
    address = front ++ .consequence place :: rest ∧
    root.at? front = some (.choice condition consequence alternative) ∧
    (Text.trim condition = "TYPE_CHECKING" ∨ Text.trim condition = "typing.TYPE_CHECKING")

def entersGuard : Statement → Step → Bool
  | .choice condition _ _, .consequence _ => isTypeCheckingGuard condition
  | _, _ => false

lemma entersGuard_iff {s : Statement} {step : Step} :
    s.entersGuard step = true ↔ ∃ place condition consequence alternative,
      step = .consequence place ∧ s = .choice condition consequence alternative ∧
      (Text.trim condition = "TYPE_CHECKING" ∨ Text.trim condition = "typing.TYPE_CHECKING") := by
  cases s <;> cases step <;> simp [entersGuard, isTypeCheckingGuard]

lemma not_guarded_nil (s : Statement) : ¬ s.Guarded [] := by
  rintro ⟨front, place, rest, -, -, -, haddress, -⟩
  cases front <;> cases haddress

lemma guarded_cons {s : Statement} {step : Step} {rest : List Step} :
    s.Guarded (step :: rest) ↔
      s.entersGuard step = true ∨ ∃ inner ∈ s.child? step, inner.Guarded rest := by
  rw [entersGuard_iff]
  constructor
  · rintro ⟨front, place, back, condition, consequence, alternative, haddress, hat, hguard⟩
    cases front with
    | nil =>
      cases haddress
      cases hat
      exact Or.inl ⟨place, condition, consequence, alternative, rfl, rfl, hguard⟩
    | cons first front =>
      obtain ⟨rfl, rfl⟩ := List.cons.inj haddress
      obtain ⟨inner, hinner, hat⟩ := Option.bind_eq_some_iff.mp hat
      exact Or.inr ⟨inner, hinner, front, place, back, condition, consequence, alternative, rfl,
        hat, hguard⟩
  · rintro (⟨place, condition, consequence, alternative, rfl, rfl, hguard⟩ | ⟨inner, hinner, h⟩)
    · exact ⟨[], place, rest, condition, consequence, alternative, rfl, rfl, hguard⟩
    · obtain ⟨front, place, back, condition, consequence, alternative, rfl, hat, hguard⟩ := h
      exact ⟨step :: front, place, back, condition, consequence, alternative, rfl,
        Option.bind_eq_some_iff.mpr ⟨inner, hinner, hat⟩, hguard⟩

instance decidableGuarded : (s : Statement) → (address : List Step) → Decidable (s.Guarded address)
  | s, [] => isFalse s.not_guarded_nil
  | _, _ :: rest =>
    have : ∀ inner : Statement, Decidable (inner.Guarded rest) :=
      fun inner => decidableGuarded inner rest
    decidable_of_iff _ guarded_cons.symm

/-- What holds of a statement as soon as it holds of the statements in its blocks holds of all. -/
@[elab_as_elim]
theorem blockInduction {motive : Statement → Prop} (importing : ∀ s, motive (.importing s))
    (interface : ∀ s, motive (.interface s)) (comment : ∀ c, motive (.comment c))
    (plain : motive .plain)
    (choice : ∀ condition consequence alternative, (∀ s ∈ consequence, motive s) →
      (∀ s ∈ alternative, motive s) → motive (.choice condition consequence alternative))
    (compound : ∀ body, (∀ s ∈ body, motive s) → motive (.compound body)) (s : Statement) :
    motive s :=
  @Statement.rec motive (fun block => ∀ s ∈ block, motive s) importing interface comment plain
    choice compound (by simp) (fun _ _ hfirst hrest => List.forall_mem_cons.mpr ⟨hfirst, hrest⟩) s

end Statement

/-! ### Import statements with their addresses -/

mutual

/-- The import statements in a statement, in the order of the source, with their addresses. -/
def sites : Statement → List (List Step × ImportStatement)
  | .importing s => [([], s)]
  | .choice _ consequence alternative =>
    sitesFrom .consequence 0 consequence ++ sitesFrom .alternative 0 alternative
  | .compound body => sitesFrom .body 0 body
  | _ => []

/-- The import statements in a block, from a place on. -/
def sitesFrom (step : Nat → Step) (place : Nat) :
    List Statement → List (List Step × ImportStatement)
  | [] => []
  | s :: rest =>
    ((sites s).map fun x => (step place :: x.1, x.2)) ++ sitesFrom step (place + 1) rest

end

lemma mem_sitesFrom {block : List Statement} {step : Nat → Step} {place : Nat}
    (h : ∀ s ∈ block, ∀ x, x ∈ sites s ↔ s.at? x.1 = some (.importing x.2))
    (x : List Step × ImportStatement) :
    x ∈ sitesFrom step place block ↔ ∃ k s rest, block[k]? = some s ∧
      x.1 = step (place + k) :: rest ∧ s.at? rest = some (.importing x.2) := by
  induction block generalizing place with
  | nil => simp [sitesFrom]
  | cons s block ih =>
    obtain ⟨hs, hblock⟩ := List.forall_mem_cons.mp h
    rw [sitesFrom, List.mem_append, List.mem_map, ih hblock]
    constructor
    · rintro (⟨y, hy, rfl⟩ | ⟨k, t, rest, ht, haddress, hat⟩)
      · exact ⟨0, s, y.1, rfl, rfl, (hs y).mp hy⟩
      · exact ⟨k + 1, t, rest, ht, by rw [haddress, Nat.add_right_comm, Nat.add_assoc], hat⟩
    · rintro ⟨k, t, rest, ht, haddress, hat⟩
      cases k with
      | zero =>
        cases ht
        exact Or.inl ⟨(rest, x.2), (hs _).mpr hat, Prod.ext haddress.symm rfl⟩
      | succ k =>
        exact Or.inr ⟨k, t, rest, ht, by rw [haddress, Nat.add_right_comm, Nat.add_assoc], hat⟩

/-- The sites in a statement are the addresses at which an import statement stands. -/
theorem mem_sites (s : Statement) (x : List Step × ImportStatement) :
    x ∈ sites s ↔ s.at? x.1 = some (.importing x.2) := by
  induction s using Statement.blockInduction generalizing x with
  | importing i =>
    obtain ⟨address, found⟩ := x
    cases address <;> simp [sites, Statement.at?, Statement.child?, eq_comm]
  | interface _ | comment _ | plain =>
    obtain ⟨address, found⟩ := x
    cases address <;> simp [sites, Statement.at?, Statement.child?]
  | choice condition consequence alternative hconsequence halternative =>
    obtain ⟨address, found⟩ := x
    rw [sites, List.mem_append, mem_sitesFrom hconsequence, mem_sitesFrom halternative]
    cases address with
    | nil => simp [Statement.at?]
    | cons first rest =>
      cases first <;> simp [Statement.at?, Statement.child?, Option.bind_eq_some_iff]
  | compound body hbody =>
    obtain ⟨address, found⟩ := x
    rw [sites, mem_sitesFrom hbody]
    cases address with
    | nil => simp [Statement.at?]
    | cons first rest =>
      cases first <;> simp [Statement.at?, Statement.child?, Option.bind_eq_some_iff]

lemma exists_step_of_mem_sitesFrom {block : List Statement} {step : Nat → Step} {place : Nat}
    {x : List Step × ImportStatement} (hx : x ∈ sitesFrom step place block) :
    ∃ k rest, x.1 = step (place + k) :: rest := by
  obtain ⟨k, s, rest, -, haddress, -⟩ := (mem_sitesFrom (fun s _ => mem_sites s) x).mp hx
  exact ⟨k, rest, haddress⟩

lemma nodup_sitesFrom {block : List Statement} {step : Nat → Step} {place : Nat}
    (hstep : Function.Injective step) (h : ∀ s ∈ block, ((sites s).map (·.1)).Nodup) :
    ((sitesFrom step place block).map (·.1)).Nodup := by
  induction block generalizing place with
  | nil => simp [sitesFrom]
  | cons s block ih =>
    obtain ⟨hs, hblock⟩ := List.forall_mem_cons.mp h
    rw [sitesFrom, List.map_append, List.map_map, List.nodup_append]
    refine ⟨?_, ih hblock, ?_⟩
    · have hcons : (sites s).map ((fun x : List Step × ImportStatement => x.1) ∘
          fun x => (step place :: x.1, x.2)) = ((sites s).map (·.1)).map (step place :: ·) := by
        simp
      rw [hcons]
      exact hs.map fun a b hab => (List.cons.inj hab).2
    · -- addresses from later places start with another step
      intro a ha b hb hab
      obtain ⟨x, -, rfl⟩ := List.mem_map.mp ha
      obtain ⟨y, hy, rfl⟩ := List.mem_map.mp hb
      obtain ⟨k, rest, haddress⟩ := exists_step_of_mem_sitesFrom hy
      rw [haddress] at hab
      have hplace := hstep (List.cons.inj hab).1
      omega

/-- No two import statements have the same address. -/
theorem nodup_sites (s : Statement) : ((sites s).map (·.1)).Nodup := by
  induction s using Statement.blockInduction with
  | importing _ | interface _ | comment _ | plain => simp [sites]
  | choice condition consequence alternative hconsequence halternative =>
    rw [sites, List.map_append, List.nodup_append]
    refine ⟨nodup_sitesFrom (fun a b h => Step.consequence.inj h) hconsequence,
      nodup_sitesFrom (fun a b h => Step.alternative.inj h) halternative, ?_⟩
    intro a ha b hb hab
    obtain ⟨x, hx, rfl⟩ := List.mem_map.mp ha
    obtain ⟨y, hy, rfl⟩ := List.mem_map.mp hb
    obtain ⟨k, rest, hx⟩ := exists_step_of_mem_sitesFrom hx
    obtain ⟨k', rest', hy⟩ := exists_step_of_mem_sitesFrom hy
    rw [hx, hy] at hab
    cases (List.cons.inj hab).1
  | compound body hbody => exact nodup_sitesFrom (fun a b h => Step.body.inj h) hbody

/-! ### The walk that skips guards -/

/-- Whether a walk looks at an address: without the imports for type checkers it must not be
guarded. -/
def visits (ignoreTypeChecking : Bool) (root : Statement) (address : List Step) : Bool :=
  !(ignoreTypeChecking && root.Guarded address)

lemma visits_cons {ignoreTypeChecking : Bool} {parent s : Statement} {step : Step}
    (hchild : parent.child? step = some s)
    (hopen : ignoreTypeChecking = true → parent.entersGuard step = false) (rest : List Step) :
    visits ignoreTypeChecking parent (step :: rest) = visits ignoreTypeChecking s rest := by
  cases ignoreTypeChecking with
  | false => rfl
  | true =>
    have hguarded : parent.Guarded (step :: rest) ↔ s.Guarded rest := by
      simp [Statement.guarded_cons, hopen, hchild]
    simp [visits, hguarded]

lemma importsOfAll_eq {ignoreTypeChecking : Bool} {block : List Statement} (parent : Statement)
    (step : Nat → Step) (place : Nat)
    (hchild : ∀ k s, block[k]? = some s → parent.child? (step (place + k)) = some s)
    (hopen : ∀ k, ignoreTypeChecking = true → parent.entersGuard (step k) = false)
    (h : ∀ s ∈ block, importsOf ignoreTypeChecking s =
      ((sites s).filter fun x => visits ignoreTypeChecking s x.1).map (·.2)) :
    importsOfAll ignoreTypeChecking block =
      ((sitesFrom step place block).filter fun x =>
        visits ignoreTypeChecking parent x.1).map (·.2) := by
  induction block generalizing place with
  | nil => rfl
  | cons s block ih =>
    obtain ⟨hs, hblock⟩ := List.forall_mem_cons.mp h
    have hfirst : ((fun x : List Step × ImportStatement => visits ignoreTypeChecking parent x.1) ∘
        fun x : List Step × ImportStatement => (step place :: x.1, x.2)) =
          fun x => visits ignoreTypeChecking s x.1 :=
      funext fun x => visits_cons (hchild 0 s rfl) (hopen place) x.1
    have hrest := ih (place + 1)
      (fun k t ht => by rw [Nat.add_right_comm, Nat.add_assoc]; exact hchild (k + 1) t ht) hblock
    rw [importsOfAll_cons, sitesFrom, List.filter_append, List.map_append, List.filter_map, hfirst,
      List.map_map, hs, hrest]
    rfl

/-- The walk finds the import statements that it looks at, in their order. -/
theorem importsOf_eq (ignoreTypeChecking : Bool) (s : Statement) :
    importsOf ignoreTypeChecking s =
      ((sites s).filter fun x => visits ignoreTypeChecking s x.1).map (·.2) := by
  induction s using Statement.blockInduction with
  | importing i => simp [importsOf, picked, Statement.importing?, sites, visits,
      Statement.not_guarded_nil]
  | interface _ | comment _ | plain => simp [importsOf, picked, Statement.importing?, sites]
  | choice condition consequence alternative hconsequence halternative =>
    have hsecond := importsOfAll_eq (.choice condition consequence alternative) .alternative 0
      (by simp [Statement.child?]) (fun _ _ => rfl) halternative
    rw [importsOf_choice, sites, List.filter_append, List.map_append, ← hsecond]
    split
    · rename_i hguard
      obtain ⟨hignore, hguard⟩ := Bool.and_eq_true_iff.mp hguard
      have hnone : ((sitesFrom .consequence 0 consequence).filter fun x =>
          visits ignoreTypeChecking (.choice condition consequence alternative) x.1) = [] := by
        rw [List.filter_eq_nil_iff]
        intro x hx
        obtain ⟨k, rest, haddress⟩ := exists_step_of_mem_sitesFrom hx
        have hguarded : (Statement.choice condition consequence alternative).Guarded x.1 := by
          rw [haddress, Statement.guarded_cons]
          exact Or.inl hguard
        simp [visits, hignore, hguarded]
      rw [hnone]
      rfl
    · rename_i hguard
      have hfirst := importsOfAll_eq (.choice condition consequence alternative) .consequence 0
        (by simp [Statement.child?]) (by simpa [Statement.entersGuard] using hguard) hconsequence
      rw [← hfirst]
  | compound body hbody =>
    exact importsOfAll_eq (.compound body) .body 0 (by simp [Statement.child?]) (fun _ _ => rfl)
      hbody

lemma importsOf_sublist (s : Statement) : (importsOf true s).Sublist (importsOf false s) := by
  rw [importsOf_eq, importsOf_eq]
  exact List.Sublist.map _ (by simp [visits])

lemma importsOf_eq_sites (s : Statement) : importsOf false s = (sites s).map (·.2) := by
  rw [importsOf_eq, List.filter_eq_self.mpr fun x _ => by simp [visits]]

end ImportFence.Source
