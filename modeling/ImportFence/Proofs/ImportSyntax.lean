import ImportFence.Source.Statement
import ImportFence.Proofs.Nesting

/-!
# How import statements are written

An import statement is the word `import` and modules, or the word `from`, a module with dots before
it, and what is taken out of it. Reading one gives what its written form asks for: the dotted names
in their order, without their aliases.
-/

namespace ImportFence.Source

/-- A name with dots in it, by its parts. -/
structure DottedName where
  first : String
  rest : List String

/-- A dotted name, and the name that it is bound to instead. -/
structure AliasedName where
  path : DottedName
  bound : Option String

/-- Dots before a module that stand together. -/
inductive Dots where
  | one
  | three

/-- What is taken out of a module: everything, or names, in brackets or not, and whether a comma ends
the list. -/
inductive Imported where
  | everything
  | names (bracketed : Bool) (list : List AliasedName) (trailing : Bool)

/-- An import statement as it is written. -/
inductive ImportForm where
  | modules (list : List AliasedName) (trailing : Bool)
  | fromModule (dots : List Dots) (path : Option DottedName) (imported : Imported)

namespace DottedName

def kinds (n : DottedName) : List Kind :=
  .name n.first :: n.rest.flatMap fun part => [.mark ".", .name part]

def text (n : DottedName) : String :=
  Text.join "." (n.first :: n.rest)

lemma eq_of_text_eq {n : DottedName} {word : String} (hdot : '.' ∉ word.toList) (h : n.text = word) :
    n = ⟨word, []⟩ := by
  obtain ⟨first, rest⟩ := n
  cases rest with
  | nil =>
    have hfirst : first = word := by simpa [text, Text.join, Text.joinChars] using h
    rw [hfirst]
  | cons part rest =>
    rw [← h] at hdot
    exact absurd (by simp [text, Text.join, Text.joinChars]) hdot

end DottedName

/-- The tokens of a dotted name and of its alias. -/
def AliasedName.kinds (n : AliasedName) : List Kind :=
  n.path.kinds ++ n.bound.elim [] fun word => [.keyword "as", .name word]

namespace Dots

def kind : Dots → Kind
  | one => .mark "."
  | three => .mark "..."

def count : Dots → Nat
  | one => 1
  | three => 3

def total : List Dots → Nat
  | [] => 0
  | d :: dots => d.count + total dots

end Dots

namespace Imported

def kinds : Imported → List Kind
  | everything => [.mark "*"]
  | names false list trailing => Reader.commaList (list.map AliasedName.kinds) trailing
  | names true list trailing =>
    .mark "(" :: (Reader.commaList (list.map AliasedName.kinds) trailing ++ [.mark ")"])

def value : Imported → ImportedNames
  | everything => .wildcard
  | names _ list _ => .names (list.map (·.path.text))

end Imported

namespace ImportForm

def kinds : ImportForm → List Kind
  | modules list trailing =>
    .keyword "import" :: Reader.commaList (list.map AliasedName.kinds) trailing
  | fromModule dots path imported =>
    .keyword "from" :: (dots.map Dots.kind ++ (path.elim [] DottedName.kinds ++
      .keyword "import" :: imported.kinds))

/-- What an import statement asks for. One that only changes the language asks for nothing. -/
def request? : ImportForm → Option Request
  | modules list _ => some (.modules (list.map (·.path.text)))
  | fromModule dots path imported =>
    let level := Dots.total dots
    let module := path.elim "" DottedName.text
    if level = 0 ∧ module = "__future__" then none
    else some (.fromModule level module imported.value)

end ImportForm

/-- The tokens that may stand in an import statement: not those that end a statement or a header. -/
def Kind.inImport (k : Kind) : Bool :=
  k ≠ .mark ";" && k ≠ .mark ":"

namespace ImportForm

open Reader IsLanguage

lemma free_dottedName (n : DottedName) : Free Kind.inImport n.kinds := by
  refine cons rfl fun k hk => ?_
  obtain ⟨part, -, hk⟩ := List.mem_flatMap.mp hk
  simp only [List.mem_cons, List.not_mem_nil, or_false] at hk
  rcases hk with rfl | rfl <;> rfl

lemma free_names (list : List AliasedName) (trailing : Bool) :
    Free Kind.inImport (commaList (list.map AliasedName.kinds) trailing) := by
  refine commaList_mem rfl (fun w hw => ?_) trailing
  obtain ⟨n, -, rfl⟩ := List.mem_map.mp hw
  refine append (free_dottedName n.path) ?_
  cases n.bound with
  | none => exact nil
  | some word => exact cons rfl (cons rfl nil)

lemma free_imported (i : Imported) : Free Kind.inImport i.kinds := by
  cases i with
  | everything => exact singleton rfl
  | names bracketed list trailing =>
    cases bracketed with
    | false => exact free_names list trailing
    | true => exact cons rfl (append (free_names list trailing) (singleton rfl))

lemma free_kinds (form : ImportForm) : Free Kind.inImport form.kinds := by
  cases form with
  | modules list trailing => exact cons rfl (free_names list trailing)
  | fromModule dots path imported =>
    refine cons rfl (append ?_ (append ?_ (cons rfl (free_imported imported))))
    · intro k hk
      obtain ⟨d, -, rfl⟩ := List.mem_map.mp hk
      cases d <;> rfl
    · cases path with
      | none => exact nil
      | some n => exact free_dottedName n

lemma import_mem_kinds (form : ImportForm) : .keyword "import" ∈ form.kinds := by
  cases form <;> simp [kinds]

lemma exists_kinds_eq (form : ImportForm) :
    ∃ word rest, (word = "import" ∨ word = "from") ∧ form.kinds = .keyword word :: rest := by
  cases form with
  | modules list trailing => exact ⟨"import", _, Or.inl rfl, rfl⟩
  | fromModule dots path imported => exact ⟨"from", _, Or.inr rfl, rfl⟩

end ImportForm

namespace Statement

open Reader

lemma takes_dotted : Takes [] dotted fun text w => ∃ n : DottedName, n.text = text ∧ w = n.kinds := by
  have hparts : ∀ n, Takes [] (dottedWithin n) fun parts w =>
      ∃ n : DottedName, n.first :: n.rest = parts ∧ w = n.kinds := by
    intro n
    induction n with
    | zero => exact takes_fail
    | succ n ih =>
      refine takes_name.bind fun first w hw => ?_
      subst hw
      refine takes_accept_bind (ih.bind fun parts v hv => takes_pure ?_)
        (takes_pure ⟨⟨first, []⟩, rfl, rfl⟩)
      obtain ⟨m, rfl, rfl⟩ := hv
      exact ⟨⟨first, m.first :: m.rest⟩, rfl, by simp [DottedName.kinds]⟩
  refine takes_size_bind fun n => (hparts n).bind fun parts w hw => takes_pure ?_
  obtain ⟨m, rfl, rfl⟩ := hw
  exact ⟨m, rfl, by simp⟩

lemma takes_aliased :
    Takes [] aliased fun text w => ∃ n : AliasedName, n.path.text = text ∧ w = n.kinds := by
  refine takes_dotted.bind fun text w hw => ?_
  obtain ⟨m, rfl, rfl⟩ := hw
  refine takes_accept_bind (takes_name.bind fun bound v hv => takes_pure ?_)
    (takes_pure ⟨⟨m, none⟩, rfl, rfl⟩)
  subst hv
  exact ⟨⟨m, some bound⟩, rfl, rfl⟩

lemma takes_importList : Takes [] importList fun names w => ∃ (list : List AliasedName) (trailing : Bool),
    list.map (·.path.text) = names ∧ w = commaList (list.map AliasedName.kinds) trailing := by
  refine (takes_items isName takes_aliased).bind fun r w hw => takes_pure ?_
  obtain ⟨ws, -, hws, rfl⟩ := hw
  obtain ⟨list, hnames, hkinds⟩ : ∃ list : List AliasedName,
      list.map (·.path.text) = r.1 ∧ list.map AliasedName.kinds = ws := by
    generalize r.1 = names at hws
    induction hws with
    | nil => exact ⟨[], rfl, rfl⟩
    | cons hn _ ih =>
      obtain ⟨n, rfl, rfl⟩ := hn
      obtain ⟨list, rfl, rfl⟩ := ih
      exact ⟨n :: list, rfl, rfl⟩
  exact ⟨list, r.2, hnames, by rw [hkinds, List.append_nil]⟩

lemma takes_levelWithin (n : Nat) : Takes [] (levelWithin n) fun level w =>
    ∃ dots : List Dots, Dots.total dots = level ∧ w = dots.map Dots.kind := by
  induction n with
  | zero => exact takes_pure ⟨[], rfl, rfl⟩
  | succ n ih =>
    refine takes_accept_bind (ih.bind fun level w hw => takes_pure ?_)
      (takes_accept_bind (ih.bind fun level w hw => takes_pure ?_) (takes_pure ⟨[], rfl, rfl⟩))
    · obtain ⟨dots, rfl, rfl⟩ := hw
      exact ⟨.one :: dots, by simp [Dots.total, Dots.count, Nat.add_comm], by simp [Dots.kind]⟩
    · obtain ⟨dots, rfl, rfl⟩ := hw
      exact ⟨.three :: dots, by simp [Dots.total, Dots.count, Nat.add_comm], by simp [Dots.kind]⟩

lemma takes_listedNames : Takes [] listedNames fun names w =>
    ∃ imported : Imported, imported.value = .names names ∧ w = imported.kinds := by
  refine takes_accept_bind ?_ ?_
  · refine takes_importList.bind fun names w hw => takes_expect_bind (takes_pure ?_)
    obtain ⟨list, trailing, rfl, rfl⟩ := hw
    exact ⟨.names true list trailing, rfl, rfl⟩
  · refine takes_importList.mono fun names w hw => ?_
    obtain ⟨list, trailing, rfl, rfl⟩ := hw
    exact ⟨.names false list trailing, rfl, by simp [Imported.kinds]⟩

lemma takes_importedNames : Takes [] importedNames fun names w =>
    ∃ imported : Imported, imported.value = names ∧ w = imported.kinds := by
  refine takes_accept_bind (takes_pure ⟨.everything, rfl, rfl⟩)
    (takes_listedNames.bind fun names w hw => takes_pure ?_)
  rwa [List.append_nil]

lemma Dots.eq_nil_of_total {dots : List Dots} (h : Dots.total dots = 0) : dots = [] := by
  cases dots with
  | nil => rfl
  | cons d dots => cases d <;> simp [Dots.total, Dots.count] at h

lemma takes_moduleRest : Takes [] moduleRest fun request w =>
    ∃ (dots : List Dots) (path : Option DottedName) (imported : Imported),
      request = .fromModule (Dots.total dots) (path.elim "" DottedName.text) imported.value ∧
      w = dots.map Dots.kind ++ (path.elim [] DottedName.kinds ++
        .keyword "import" :: imported.kinds) := by
  refine takes_size_bind fun n => (takes_levelWithin n).bind fun level w hw => ?_
  obtain ⟨dots, rfl, rfl⟩ := hw
  have hrest : ∀ path : Option DottedName, Takes [] (do
      keyword "import"
      return .fromModule (Dots.total dots) (path.elim "" DottedName.text) (← importedNames))
      fun request v => ∃ (dots' : List Dots) (path' : Option DottedName) (imported : Imported),
        request = Request.fromModule (Dots.total dots') (path'.elim "" DottedName.text)
          imported.value ∧
        dots.map Dots.kind ++ (path.elim [] DottedName.kinds ++ v) =
          dots'.map Dots.kind ++ (path'.elim [] DottedName.kinds ++
            .keyword "import" :: imported.kinds) := by
    intro path
    refine takes_expect_bind (takes_importedNames.bind fun names v hv => takes_pure ?_)
    obtain ⟨imported, rfl, rfl⟩ := hv
    exact ⟨dots, path, imported, rfl, by rw [List.append_nil]⟩
  refine takes_peek_bind ?_ fun k => ?_
  · exact takes_ite (fun _ => takes_fail_bind) fun _ => hrest none
  split
  · refine takes_dotted.anyhow.bind fun text v hv => ?_
    obtain ⟨n, rfl, rfl⟩ := hv
    exact hrest (some n)
  · exact takes_ite (fun _ => takes_fail_bind) fun _ => (hrest none).anyhow

lemma takes_fromRest : Takes [] fromRest fun o w =>
    ∃ form : ImportForm, form.request? = o ∧ form.kinds = .keyword "from" :: w := by
  refine takes_accept_bind_ne ?_ ?_
  · refine takes_expect_bind (takes_listedNames.bind fun names w hw => takes_pure ?_)
    obtain ⟨imported, -, rfl⟩ := hw
    refine ⟨.fromModule [] (some ⟨futureModule, []⟩) imported, rfl, ?_⟩
    simp [ImportForm.kinds, DottedName.kinds]
  · refine takes_moduleRest.bind fun request w hw => takes_pure fun hhead => ?_
    obtain ⟨dots, path, imported, rfl, rfl⟩ := hw
    refine ⟨.fromModule dots path imported, if_neg ?_, by rw [List.append_nil]; rfl⟩
    -- without dots, the tokens would begin with the module that changes the language
    rintro ⟨hlevel, hmodule⟩
    obtain rfl := Dots.eq_nil_of_total hlevel
    cases path with
    | none => exact absurd hmodule (by decide)
    | some n =>
      obtain rfl := DottedName.eq_of_text_eq (by decide) hmodule
      exact hhead rfl

end Statement

end ImportFence.Source
