import ImportFence.Proofs.Addresses
import ImportFence.Proofs.ParsedSource
import ImportFence.Proofs.Sorted

/-!
# The imports of a source

The imports of a source are those of the import statements written in it, in the order of the text.
They are collected from the last statement to the first, and each statement patches the records that
it added. The statements start at different places, one behind the other, so a stable sort by place
gives what a walk in the order of the source finds.
-/

namespace ImportFence.Source
open Std

open Statement

/-! ### Places of tokens -/

lemma flatten_pieces_sublist (line : List Token) : (pieces line).flatten.Sublist line := by
  unfold pieces
  induction line with
  | nil => exact List.Sublist.refl _
  | cons t line ih =>
    rw [List.splitOnP_cons_eq_if_modifyHead]
    split
    · exact List.Sublist.cons t ih
    · cases hpieces : line.splitOnP (·.kind = .mark ";") with
      | nil => exact List.nil_sublist _
      | cons piece further =>
        rw [hpieces] at ih
        exact List.Sublist.cons_cons t ih

lemma flatten_segmentsOf_sublist (ps : List (List Token)) :
    (segmentsOf ps).flatten.Sublist ps.flatten := by
  induction ps with
  | nil => exact List.Sublist.refl _
  | cons piece ps ih =>
    rw [← List.singleton_append, segmentsOf_append, List.flatten_append, List.flatten_append]
    refine List.Sublist.append ?_ ih
    unfold segmentsOf
    rw [List.filter_cons]
    split
    · simpa using (List.rtakeWhile_suffix _ piece).sublist
    · exact List.nil_sublist _

lemma flatten_importSegments_sublist (lines : List Line) :
    (lines.flatMap (importSegments ·.tokens)).flatten.Sublist (lines.flatMap (·.tokens)) := by
  induction lines with
  | nil => exact List.Sublist.refl _
  | cons line lines ih =>
    rw [List.flatMap_cons, List.flatten_append, List.flatMap_cons]
    exact ((flatten_segmentsOf_sublist _).trans (flatten_pieces_sublist _)).append ih

lemma Position.before_of_length {source a b c d : List Char} (ha : source = a ++ c)
    (hb : source = b ++ d) (h : a.length < b.length) : (start.after a).Before (start.after b) := by
  obtain ⟨more, rfl⟩ : a <+: b :=
    List.prefix_of_prefix_length_le ⟨c, ha.symm⟩ ⟨d, hb.symm⟩ (Nat.le_of_lt h)
  rw [after_append]
  refine before_after _ ?_
  rintro rfl
  simp at h

/-! ### Written import statements -/

/-- What an import statement imports: the number of dots, the module, and what is taken out of it. -/
def ImportForm.records : ImportForm → List (Nat × String × ImportedNames)
  | modules list _ => list.map fun n => (0, n.path.text, .wildcard)
  | fromModule dots path imported =>
    let level := Dots.total dots
    let module := path.elim "" DottedName.text
    if level = 0 ∧ module = "__future__" then [] else [(level, module, imported.value)]

lemma ImportForm.records_eq (form : ImportForm) :
    form.records = form.request?.elim [] Request.records := by
  cases form with
  | modules list trailing => simp [records, request?, Request.records]
  | fromModule dots path imported =>
    simp only [records, request?]
    split <;> rfl

namespace WrittenImport

def start (w : WrittenImport) : Position :=
  (w.tokens.head?.map (·.start)).getD Position.start

def lastLine (w : WrittenImport) : Nat :=
  (w.tokens.getLast?.map (·.stop.line)).getD 1

/-- The imports that a statement makes, all at its place and under the same directive. -/
def imports (w : WrittenImport) (directive : Option Directive) : List Import :=
  w.form.records.map fun (level, module, names) => {
    line := w.start.line
    column := w.start.column
    level, module, names
    suppressed := directive.isSome
    reason := directive.bind (·.reason) }

lemma exists_first (w : WrittenImport) : ∃ t word rest, w.tokens = t :: rest ∧
    t.kind = .keyword word ∧ (word = "import" ∨ word = "from") ∧ w.start = t.start := by
  obtain ⟨word, rest, hword, hform⟩ := w.form.exists_kinds_eq
  have hkinds := w.written
  rw [hform] at hkinds
  obtain ⟨t, rest, htokens, hkind, -⟩ := List.map_eq_cons_iff.mp hkinds
  exact ⟨t, word, rest, htokens, hkind, hword, by rw [start, htokens]; rfl⟩

lemma exists_word {source : List Char} (w : WrittenImport)
    (h : ∀ t ∈ w.tokens, t ∈ Source.tokens (scan source)) :
    ∃ t word before after, t ∈ w.tokens ∧ w.start = t.start ∧
      source = before ++ (word.toList ++ after) ∧ (word = "import" ∨ word = "from") ∧
      t.start = Position.start.after before ∧ t.stop = t.start.after word.toList := by
  obtain ⟨t, word, rest, htokens, hkind, hword, hstart⟩ := w.exists_first
  have ht : t ∈ w.tokens := by simp [htokens]
  obtain ⟨before, text, after, hsource, htstart, htstop, hspells⟩ :=
    (laid_scan source).token_covers (h t ht)
  rw [hkind] at hspells
  obtain rfl : text = word.toList := hspells
  exact ⟨t, word, before, after, ht, hstart, hsource, hword, htstart, htstop⟩

lemma pairwise_start {source : List Char} {ws : List WrittenImport}
    (h : (ws.flatMap (·.tokens)).Sublist (Source.tokens (scan source))) :
    ws.Pairwise fun a b => a.start.Before b.start := by
  have hmem : ∀ w ∈ ws, ∀ t ∈ w.tokens, t ∈ Source.tokens (scan source) :=
    fun w hw t ht => h.subset (List.mem_flatMap.mpr ⟨w, hw, ht⟩)
  have hapart := (List.pairwise_flatMap.mp ((laid_scan source).tokens_pairwise.sublist h)).2
  refine hapart.imp_of_mem fun {a b} ha hb hab => ?_
  obtain ⟨t, word, before, after, ht, hstart, hsource, hword, htstart, htstop⟩ :=
    a.exists_word (hmem a ha)
  obtain ⟨u, word', before', after', hu, hstart', hsource', -, hustart, -⟩ :=
    b.exists_word (hmem b hb)
  rw [hstart, hstart', htstart, hustart]
  -- the first word of the earlier statement has letters, so the later one stands behind its start
  have hlength : 0 < word.toList.length := by rcases hword with rfl | rfl <;> decide
  have hoffsets : t.stop.offset ≤ u.start.offset := hab t ht u hu
  rw [htstop, htstart, hustart, Position.offset_after, Position.offset_after,
    Position.offset_after] at hoffsets
  exact Position.before_of_length hsource hsource' (by omega)

lemma flatMap_imports (suppressed : SuppressedLines) (ws : List WrittenImport) :
    (ws.filterMap (·.statement?)).flatMap (·.imports suppressed) =
      ws.flatMap fun w => w.imports (suppressed.find? w.start.line w.lastLine) := by
  induction ws with
  | nil => rfl
  | cons w ws ih =>
    rw [List.filterMap_cons, List.flatMap_cons, imports, ImportForm.records_eq, statement?, ← ih]
    cases w.form.request? <;> rfl

lemma pairwise_imports {ws : List WrittenImport} (directive : WrittenImport → Option Directive)
    (h : ws.Pairwise fun a b => a.start.Before b.start) :
    (ws.flatMap fun w => w.imports (directive w)).Pairwise fun i j =>
      i.line < j.line ∨ i.line = j.line ∧ i.column ≤ j.column := by
  have hplace : ∀ w : WrittenImport, ∀ i ∈ w.imports (directive w),
      i.line = w.start.line ∧ i.column = w.start.column := by
    intro w i hi
    obtain ⟨r, -, rfl⟩ := List.mem_map.mp hi
    exact ⟨rfl, rfl⟩
  refine List.pairwise_flatMap.mpr ⟨fun w _ => ?_, h.imp fun {a b} hab i hi j hj => ?_⟩
  · refine List.pairwise_of_forall_mem_list fun i hi j hj => ?_
    rw [(hplace w i hi).1, (hplace w j hj).1, (hplace w i hi).2, (hplace w j hj).2]
    exact Or.inr ⟨rfl, le_rfl⟩
  · rw [(hplace a i hi).1, (hplace b j hj).1, (hplace a i hi).2, (hplace b j hj).2]
    exact hab.imp_right fun heq => ⟨heq.1, heq.2.le⟩

/-- An import statement is written in a source: it starts with one of its two first words, at the
place that it has, and each of its tokens stands in the text as it is spelled. -/
structure StandsIn (w : WrittenImport) (source : List Char) : Prop where
  starts : ∃ before word after, source = before ++ (word.toList ++ after) ∧
    (word = "import" ∨ word = "from") ∧ w.start.line = 1 + before.count '\n' ∧
    w.start.column = 1 + Text.bytesOf (Position.lastLine before)
  spelled : ∀ t ∈ w.tokens, t.StandsIn Position.start source

lemma standsIn {source : List Char} (w : WrittenImport)
    (h : ∀ t ∈ w.tokens, t ∈ Source.tokens (scan source)) : w.StandsIn source where
  starts := by
    obtain ⟨t, word, before, after, -, hstart, hsource, hword, htstart, -⟩ := w.exists_word h
    refine ⟨before, word, after, hsource, hword, ?_, ?_⟩
    · rw [hstart, htstart, Position.line_after]
      rfl
    · rw [hstart, htstart, Position.column_after_start]
  spelled t ht := (laid_scan source).token_covers (h t ht)

end WrittenImport

/-! ### Sorting by place -/

instance : TransCmp comparePlaces :=
  inferInstanceAs (TransCmp (compareLex (compareOn Import.line) (compareOn Import.column)))

lemma ImportStatement.place_of_mem_imports {suppressed : SuppressedLines} {s : ImportStatement}
    {i : Import} (hi : i ∈ s.imports suppressed) :
    i.line = s.start.line ∧ i.column = s.start.column := by
  obtain ⟨r, -, rfl⟩ := List.mem_map.mp hi
  exact ⟨rfl, rfl⟩

/-- Imports of statements that start one behind the other are sorted into the order of the source. -/
lemma sort_walk {ignoreTypeChecking : Bool} {root : Statement} (suppressed : SuppressedLines)
    (h : (importsOf ignoreTypeChecking root).Pairwise fun a b => a.start.Before b.start) :
    Sorted.sort comparePlaces (walk ignoreTypeChecking (collectImports suppressed) [root] []) =
      (importsOf ignoreTypeChecking root).flatMap (·.imports suppressed) := by
  rw [walk_collectImports]
  refine Sorted.sort_flatMap_reverse (fun s _ i hi j hj => ?_) (h.imp fun {s s'} hss i hi j hj => ?_)
  · obtain ⟨hline, hcolumn⟩ := ImportStatement.place_of_mem_imports hi
    obtain ⟨hline', hcolumn'⟩ := ImportStatement.place_of_mem_imports hj
    simp [comparePlaces, compareLex, compareOn, hline, hline', hcolumn, hcolumn']
  · obtain ⟨hline, hcolumn⟩ := ImportStatement.place_of_mem_imports hi
    obtain ⟨hline', hcolumn'⟩ := ImportStatement.place_of_mem_imports hj
    rcases hss with hlt | ⟨heq, hlt⟩
    · simp [comparePlaces, compareLex, compareOn, hline, hline', Nat.compare_eq_lt.mpr hlt]
    · simp [comparePlaces, compareLex, compareOn, hline, hline', hcolumn, hcolumn', heq,
        Nat.compare_eq_lt.mpr hlt]

/-- The import statements that the lines of a source are written with are those in its tree. -/
lemma exists_written {source : List Char} {tree : Tree} (h : parse source = .ok tree) :
    ∃ written : List WrittenImport,
      written.map (·.tokens) = (lines (scan source)).flatMap (importSegments ·.tokens) ∧
      (written.flatMap (·.tokens)).Sublist (tokens (scan source)) ∧
      written.filterMap (·.statement?) = importsOf false tree.root := by
  obtain ⟨written, htokens, hfound⟩ := imports_of_parse h
  refine ⟨written, htokens, ?_, hfound⟩
  rw [List.flatMap_def, htokens, ← flatMap_lines]
  exact flatten_importSegments_sublist _

lemma pairwise_importsOf {source : List Char} {tree : Tree} (h : parse source = .ok tree)
    (ignoreTypeChecking : Bool) : (importsOf ignoreTypeChecking tree.root).Pairwise fun a b =>
      a.start.Before b.start := by
  obtain ⟨written, -, hsublist, hfound⟩ := exists_written h
  have hall : (importsOf false tree.root).Pairwise fun a b => a.start.Before b.start := by
    rw [← hfound]
    refine (WrittenImport.pairwise_start hsublist).filterMap _ fun a b hab s hs s' hs' => ?_
    obtain ⟨-, -, rfl⟩ := Option.map_eq_some_iff.mp hs
    obtain ⟨-, -, rfl⟩ := Option.map_eq_some_iff.mp hs'
    exact hab
  cases ignoreTypeChecking with
  | false => exact hall
  | true => exact hall.sublist (importsOf_sublist _)

/-- Collecting the imports off a stack and sorting them gives what the walk in the order of the source
finds. -/
theorem extractImports_eq_walk (ignoreTypeChecking : Bool) (source : String) :
    extractImports ignoreTypeChecking source = (parse source.toList).map fun tree =>
      (importsOf ignoreTypeChecking tree.root).flatMap
        (·.imports (suppressedLines source.toList tree.root)) := by
  rw [extractImports]
  cases hparse : parse source.toList with
  | error e => rfl
  | ok tree => exact congrArg Except.ok (sort_walk _ (pairwise_importsOf hparse ignoreTypeChecking))

lemma extractImports_of_written {source : String} {tree : Tree}
    (h : parse source.toList = .ok tree) {written : List WrittenImport}
    (hfound : written.filterMap (·.statement?) = importsOf false tree.root) :
    extractImports false source = .ok (written.flatMap fun w => w.imports
      ((suppressedLines source.toList tree.root).find? w.start.line w.lastLine)) := by
  rw [extractImports_eq_walk, h, ← WrittenImport.flatMap_imports, hfound]
  rfl

/-- The imports of a source that parses are those of the import statements that its lines are written
with. The statements are those that the tree holds, at any depth and each once, in the order of a
recursive walk over it; they start one behind the other. -/
theorem extractImports_written {source : String} {tree : Tree}
    (h : parse source.toList = .ok tree) :
    ∃ written : List WrittenImport,
      written.map (·.tokens) = (lines (scan source.toList)).flatMap (importSegments ·.tokens) ∧
      (∀ w ∈ written, w.StandsIn source.toList) ∧
      (written.Pairwise fun a b => a.start.Before b.start) ∧
      written.filterMap (·.statement?) = (sites tree.root).map (·.2) ∧
      ((sites tree.root).map (·.1)).Nodup ∧
      (∀ address s, (address, s) ∈ sites tree.root ↔
        tree.root.at? address = some (.importing s)) ∧
      ∃ imports, extractImports false source = .ok imports ∧
        (imports = (importsOf false tree.root).flatMap
          (·.imports (suppressedLines source.toList tree.root))) ∧
        (imports = written.flatMap fun w => w.imports
          ((suppressedLines source.toList tree.root).find? w.start.line w.lastLine)) ∧
        imports.Pairwise fun i j => i.line < j.line ∨ i.line = j.line ∧ i.column ≤ j.column := by
  obtain ⟨written, htokens, hsublist, hfound⟩ := exists_written h
  have hstarts := WrittenImport.pairwise_start hsublist
  refine ⟨written, htokens, fun w hw => ?_, hstarts, hfound.trans (importsOf_eq_sites _),
    nodup_sites _, fun address s => mem_sites _ (address, s), _,
    extractImports_of_written h hfound, ?_, rfl, WrittenImport.pairwise_imports _ hstarts⟩
  · exact w.standsIn fun t ht => hsublist.subset (List.mem_flatMap.mpr ⟨w, hw, ht⟩)
  · rw [← WrittenImport.flatMap_imports, hfound]

namespace Sample

/-- An import statement in a block, and one over two lines. -/
def nestedSource : String :=
  "if x: import a.b as c, d\nfrom .. import (p,\n q)\n"

def nestedImports : List Import :=
  [⟨1, 7, 0, "a.b", .wildcard, false, none⟩, ⟨1, 7, 0, "d", .wildcard, false, none⟩,
    ⟨2, 1, 2, "", .names ["p", "q"], false, none⟩]

end Sample

theorem extractImports_written_sample : ∃ (tree : Tree) (written : List WrittenImport),
    parse Sample.nestedSource.toList = .ok tree ∧
      (∀ w ∈ written, w.StandsIn Sample.nestedSource.toList) ∧
      Sample.nestedImports = written.flatMap fun w => w.imports
        ((suppressedLines Sample.nestedSource.toList tree.root).find? w.start.line w.lastLine) := by
  have hall : extractImports false Sample.nestedSource = .ok Sample.nestedImports := by
    rw [extractImports_eq_walk]
    decide +kernel
  obtain ⟨tree, hparse, -⟩ := Traversal.bind_eq_ok_iff.mp hall
  obtain ⟨written, -, hstands, -, -, -, -, imports, himports, -, heq, -⟩ :=
    extractImports_written hparse
  refine ⟨tree, written, hparse, hstands, ?_⟩
  rw [← heq]
  exact Except.ok.inj (hall.symm.trans himports)

end ImportFence.Source
