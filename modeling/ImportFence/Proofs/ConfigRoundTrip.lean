import ImportFence.Proofs.TomlText
import ImportFence.Proofs.Traversal

/-!
# Configurations survive writing and reading

A written configuration denotes one statement per field and three per constraint. Assembling them
gives the entries from which the fields are taken back one by one, so that reading a written
configuration returns it as it was, in the layout with one table per constraint.
-/

namespace ImportFence
open Traversal

/-! ### Statements and entries -/

namespace Toml

def textArray (items : List String) : Value :=
  .array (items.map .text)

lemma isValue_write (s : String) : IsValue (Quoted.write s.toList) (.text s) :=
  ⟨solid_write s.toList, readValue_write s⟩

lemma isValue_writeTexts (items : List String) : IsValue (writeTexts items) (textArray items) := by
  refine ⟨?_, fun rest => readValue_writeTexts items _⟩
  match items with
  | [] => exact ⟨'[', _, rfl, by decide⟩
  | [s] => exact ⟨'[', _, rfl, by decide⟩
  | s :: s' :: items => exact ⟨'[', _, rfl, by decide⟩

lemma isValue_writeBoolean (b : Bool) : IsValue (writeBoolean b) (.boolean b) := by
  refine ⟨?_, readValue_writeBoolean b⟩
  cases b
  · exact ⟨'f', _, rfl, by decide⟩
  · exact ⟨'t', _, rfl, by decide⟩

lemma denotes_writePair (key : String) (hkey : IsPlainKey key) {text : List Char} {v : Value}
    (hvalue : IsValue text v) : Denotes (writePair key text) [.pair [] key v] := by
  refine denotes_of_readStatement ?_ (readStatement_writePair hkey hvalue)
  rw [writePair, List.append_assoc, List.append_assoc]
  exact hkey.solid.append _

namespace Entries

lemma lookup_append_self {entries : Entries} {key : String} (h : entries.lookup key = none)
    (v : Value) : (entries ++ [(key, v)]).lookup key = some v := by
  rw [List.lookup_append, h]
  simp

lemma replace_append_self {entries : Entries} {key : String} (h : entries.lookup key = none)
    (v w : Value) : replace key w (entries ++ [(key, v)]) = entries ++ [(key, w)] := by
  have hfresh : ∀ entry ∈ entries, entry.1 ≠ key := by
    intro entry hentry heq
    have := List.lookup_eq_none_iff.mp h entry hentry
    simp [heq] at this
  have hsame : entries.map (fun entry => if entry.1 = key then (entry.1, w) else entry) = entries := by
    conv_rhs => rw [← List.map_id entries]
    refine List.map_congr_left fun entry hentry => ?_
    simp [hfresh entry hentry]
  simp only [replace, List.map_append, List.map_singleton]
  rw [hsame]
  simp

/-- Entries with a list of tables under a key, unless the list is empty. -/
def withTables (entries : Entries) (key : String) (tables : List Entries) : Entries :=
  if tables = [] then entries else entries ++ [(key, .tables tables)]

end Entries

namespace Draft
open Entries

lemma add_listHeader {entries : Entries} {key : String} (h : entries.lookup key = none)
    (tables : List Entries) (current : List String) :
    add ⟨withTables entries key tables, current⟩ (.listHeader [] key) =
      .ok ⟨withTables entries key (tables ++ [[]]), [key]⟩ := by
  by_cases hempty : tables = []
  · subst hempty
    simp [withTables, add, alter, openListTable, h, bind, Except.bind, pure, Except.pure]
  · simp [withTables, hempty, add, alter, openListTable, lookup_append_self h,
      replace_append_self h, bind, Except.bind, pure, Except.pure]

lemma add_pair_last {entries inner : Entries} {key key' : String} (h : entries.lookup key = none)
    (h' : inner.lookup key' = none) (tables : List Entries) (v : Value) :
    add ⟨withTables entries key (tables ++ [inner]), [key]⟩ (.pair [] key' v) =
      .ok ⟨withTables entries key (tables ++ [inner ++ [(key', v)]]), [key]⟩ := by
  simp [withTables, add, alter, put, h', lookup_append_self h, replace_append_self h, bind,
    Except.bind, pure, Except.pure]

end Draft

lemma onlyFields_eq_ok {known : List String} {entries : Entries}
    (h : ∀ entry ∈ entries, entry.1 ∈ known) : onlyFields known entries = .ok () := by
  rw [onlyFields, List.find?_eq_none.mpr]
  intro entry hentry
  simpa using h entry hentry

lemma asTexts_textArray (name : String) (items : List String) :
    asTexts name (textArray items) = .ok items := by
  rw [textArray, asTexts]
  induction items with
  | nil => rfl
  | cons s items ih =>
    rw [List.map_cons, List.mapM_cons, ih]
    rfl

end Toml

namespace Constraint
open Toml

def entries (c : Constraint) : Entries :=
  [("tag", .text c.tag), ("depends_on", textArray c.dependsOn)]

def statements (c : Constraint) : List Statement :=
  [.listHeader [] "constraints", .pair [] "tag" (.text c.tag),
    .pair [] "depends_on" (textArray c.dependsOn)]

lemma denotes_write (c : Constraint) : Denotes c.write c.statements := by
  have hheader : Denotes "[[constraints]]\n".toList [.listHeader [] "constraints"] := by
    refine denotes_of_readStatement ⟨'[', _, rfl, by decide⟩ fun rest => ?_
    exact readStatement_listHeader (by decide : IsPlainKey "constraints") rest
  have htag := denotes_writePair "tag" (by decide) (isValue_write c.tag)
  have hdeps := denotes_writePair "depends_on" (by decide) (isValue_writeTexts c.dependsOn)
  exact ((denotes_blank.append hheader).append htag).append hdeps

lemma foldlM_statements {fields : Entries} (h : fields.lookup "constraints" = none)
    (tables : List Entries) (current : List String) (c : Constraint) :
    c.statements.foldlM Draft.add ⟨fields.withTables "constraints" tables, current⟩ =
      .ok ⟨fields.withTables "constraints" (tables ++ [c.entries]), ["constraints"]⟩ := by
  rw [statements, List.foldlM_cons, Draft.add_listHeader h]
  change [_, _].foldlM Draft.add _ = _
  rw [List.foldlM_cons, Draft.add_pair_last h rfl]
  change [_].foldlM Draft.add _ = _
  rw [List.foldlM_cons, Draft.add_pair_last h rfl]
  rfl

lemma foldlM_flatMap_statements {fields : Entries} (h : fields.lookup "constraints" = none)
    (cs : List Constraint) (tables : List Entries) (current : List String) :
    ∃ current', (cs.flatMap statements).foldlM Draft.add
        ⟨fields.withTables "constraints" tables, current⟩ =
      .ok ⟨fields.withTables "constraints" (tables ++ cs.map entries), current'⟩ := by
  induction cs generalizing tables current with
  | nil => exact ⟨current, by rw [List.map_nil, List.append_nil]; rfl⟩
  | cons c cs ih =>
    obtain ⟨current', hrest⟩ := ih (tables ++ [c.entries]) ["constraints"]
    refine ⟨current', ?_⟩
    rw [List.flatMap_cons, List.foldlM_append, foldlM_statements h]
    rw [List.append_assoc, List.singleton_append, ← List.map_cons] at hrest
    exact hrest

lemma ofEntries_entries (c : Constraint) : ofEntries c.entries = .ok c := by
  have hknown : onlyFields ["tag", "depends_on"] c.entries = .ok () :=
    onlyFields_eq_ok (by simp [entries])
  have htag : requiredField asText c.entries "tag" = .ok c.tag := rfl
  have hdeps : fieldOr [] asTexts c.entries "depends_on" = .ok c.dependsOn :=
    asTexts_textArray "depends_on" c.dependsOn
  rw [ofEntries, hknown, htag, hdeps]
  rfl

end Constraint

namespace Config
open Toml

/-- The entries of the fields in front of the constraints. -/
def fieldEntries (c : Config) : Entries :=
  [("source_roots", textArray (c.sourceRoots.map (·.text))), ("exclude", textArray c.exclude),
    ("exclude_hidden_paths", .boolean c.excludeHidden),
    ("ignore_type_checking_imports", .boolean c.ignoreTypeChecking)]

/-- The value of the constraints: an empty array, or a list of tables. -/
def constraintsValue (cs : List Constraint) : Value :=
  if cs = [] then textArray [] else .tables (cs.map Constraint.entries)

def constraintStatements (cs : List Constraint) : List Statement :=
  if cs = [] then [.pair [] "constraints" (textArray [])] else cs.flatMap Constraint.statements

lemma denotes_writeConstraints (cs : List Constraint) :
    Denotes (writeConstraints cs) (constraintStatements cs) := by
  by_cases hempty : cs = []
  · subst hempty
    exact denotes_writePair "constraints" (by decide) (isValue_writeTexts [])
  · simp only [writeConstraints, constraintStatements, List.isEmpty_iff, hempty, if_false]
    exact Denotes.flatMap fun c _ => c.denotes_write

lemma denotes_writeChars (c : Config) :
    Denotes c.writeChars (c.fieldEntries.map (fun (key, v) => .pair [] key v) ++
      constraintStatements c.constraints) := by
  have hroots := denotes_writePair "source_roots" (by decide)
    (isValue_writeTexts (c.sourceRoots.map (·.text)))
  have hexclude := denotes_writePair "exclude" (by decide) (isValue_writeTexts c.exclude)
  have hhidden := denotes_writePair "exclude_hidden_paths" (by decide)
    (isValue_writeBoolean c.excludeHidden)
  have hchecking := denotes_writePair "ignore_type_checking_imports" (by decide)
    (isValue_writeBoolean c.ignoreTypeChecking)
  exact (((hroots.append hexclude).append hhidden).append hchecking).append
    (denotes_writeConstraints c.constraints)

lemma lookup_fieldEntries (c : Config) : c.fieldEntries.lookup "constraints" = none := rfl

lemma foldlM_fieldEntries (c : Config) :
    (c.fieldEntries.map (fun (key, v) => Statement.pair [] key v)).foldlM Draft.add Draft.empty =
      .ok ⟨c.fieldEntries, []⟩ := by
  rfl

lemma assemble_statements (c : Config) :
    assemble (c.fieldEntries.map (fun (key, v) => .pair [] key v) ++
      constraintStatements c.constraints) =
        .ok (c.fieldEntries ++ [("constraints", constraintsValue c.constraints)]) := by
  rw [assemble, List.foldlM_append, foldlM_fieldEntries]
  by_cases hempty : c.constraints = []
  · rw [hempty]
    rfl
  · obtain ⟨current, hrest⟩ :=
      Constraint.foldlM_flatMap_statements (lookup_fieldEntries c) c.constraints [] []
    rw [constraintStatements, if_neg hempty]
    change (List.foldlM Draft.add ⟨c.fieldEntries.withTables "constraints" [], []⟩ _ >>= _) = _
    rw [hrest, constraintsValue, if_neg hempty]
    simp [Entries.withTables, hempty, bind, Except.bind, pure, Except.pure]

lemma mapM_ofEntries (cs : List Constraint) :
    (cs.map Constraint.entries).mapM Constraint.ofEntries = .ok cs := by
  have hall : cs.mapM (Constraint.ofEntries ∘ Constraint.entries) = .ok (cs.map id) :=
    mapM_eq_ok_map fun c _ => c.ofEntries_entries
  rw [List.mapM_map, hall, List.map_id]

lemma constraintsOfValue_constraintsValue (name : String) (cs : List Constraint) :
    constraintsOfValue name (constraintsValue cs) = .ok (cs, false) := by
  by_cases hempty : cs = []
  · subst hempty
    rfl
  · rw [constraintsValue, if_neg hempty, constraintsOfValue, mapM_ofEntries]
    rfl

def writtenEntries (c : Config) : Entries :=
  c.fieldEntries ++ [("constraints", constraintsValue c.constraints)]

lemma ofEntries_writtenEntries (c : Config) :
    ofEntries c.writtenEntries = .ok { c with legacyLayout := false } := by
  have hknown : onlyFields ["source_roots", "exclude", "exclude_hidden_paths",
      "ignore_type_checking_imports", "constraints"] c.writtenEntries = .ok () :=
    onlyFields_eq_ok (by simp [writtenEntries, fieldEntries])
  have hroots : fieldOr ["."] asTexts c.writtenEntries "source_roots" =
      .ok (c.sourceRoots.map (·.text)) :=
    asTexts_textArray "source_roots" _
  have hexclude : fieldOr default.exclude asTexts c.writtenEntries "exclude" = .ok c.exclude :=
    asTexts_textArray "exclude" c.exclude
  have hconstraints : fieldOr ([], false) constraintsOfValue c.writtenEntries "constraints" =
      .ok (c.constraints, false) :=
    constraintsOfValue_constraintsValue "constraints" c.constraints
  have hpaths : (c.sourceRoots.map (·.text)).map Path.mk = c.sourceRoots := by
    rw [List.map_map]
    exact List.map_id _
  rw [ofEntries, hknown, hroots, hexclude, hconstraints]
  simp only [bind, Except.bind, pure, Except.pure, hpaths]
  rfl

lemma parse_toml_write (c : Config) : Toml.parse c.write = .ok c.writtenEntries := by
  have hmark : skipByteOrderMark c.write.toList = c.writeChars := by
    rw [write, String.toList_ofList]
    rfl
  rw [Toml.parse, hmark, (denotes_writeChars c).readStatements]
  exact assemble_statements c

/-- Writing a configuration and reading it again loses nothing. In particular one that was read from
a table per tag keeps its constraints in their order, and only the layout changes. -/
theorem parse_write (c : Config) :
    parse c.write = .ok { c with legacyLayout := false } ∧
    ∀ text, parse text = .ok c → c.legacyLayout = true →
      ∃ saved, parse c.write = .ok saved ∧ saved.constraints = c.constraints ∧
        saved.legacyLayout = false := by
  have hsaved : parse c.write = .ok { c with legacyLayout := false } := by
    rw [parse, parse_toml_write]
    change (ofEntries c.writtenEntries).mapError _ = _
    rw [ofEntries_writtenEntries]
    rfl
  refine ⟨hsaved, ?_⟩
  intro text hread hlegacy
  exact ⟨_, hsaved, rfl, rfl⟩

end Config

namespace Sample

/-- A table per tag, not in the order of tags, and texts that need three kinds of quotes. -/
def legacyText : String :=
  "exclude = [\"a'\"]\n[constraints.core]\ndepends_on = ['''\n\"\"\"\\\n''']\n" ++
    "[constraints.\" app\"]\n"

def legacyConfig : Config :=
  { Config.default with
    exclude := ["a'"]
    constraints := [⟨" app", []⟩, ⟨"core", ["\"\"\"\\\n"]⟩]
    legacyLayout := true }

/-- The tables of the two tags, as the document has them. -/
def legacyRules : Toml.Entries :=
  [("core", .table .header [("depends_on", .array [.text "\"\"\"\\\n"])]), (" app", .table .header [])]

def legacyEntries : Toml.Entries :=
  [("exclude", .array [.text "a'"]), ("constraints", .table .path legacyRules)]

lemma parse_toml_legacyText : Toml.parse legacyText = .ok legacyEntries := by
  rfl

lemma ofTable_legacyRules : Constraint.ofTable legacyRules = .ok legacyConfig.constraints := by
  have hsorted : (legacyRules.mergeSort fun a b => decide (a.1 ≤ b.1)) = legacyRules.reverse := by
    simp [legacyRules, List.mergeSort]
  rw [Constraint.ofTable, hsorted]
  rfl

lemma ofEntries_legacyEntries : Config.ofEntries legacyEntries = .ok legacyConfig := by
  have hconstraints : Toml.fieldOr ([], false) Config.constraintsOfValue legacyEntries
      "constraints" =
      .ok (legacyConfig.constraints, true) := by
    change Config.constraintsOfValue "constraints" (.table .path legacyRules) = _
    rw [Config.constraintsOfValue, ofTable_legacyRules]
    rfl
  rw [Config.ofEntries, hconstraints]
  rfl

lemma parse_legacyText : Config.parse legacyText = .ok legacyConfig := by
  rw [Config.parse, parse_toml_legacyText]
  change (Config.ofEntries legacyEntries).mapError _ = _
  rw [ofEntries_legacyEntries]
  rfl

end Sample

theorem Config.parse_write_sample :
    Config.parse Sample.legacyText = .ok Sample.legacyConfig ∧
    ∃ saved, Config.parse Sample.legacyConfig.write = .ok saved ∧
      saved.constraints = [⟨" app", []⟩, ⟨"core", ["\"\"\"\\\n"]⟩] ∧ saved.legacyLayout = false := by
  obtain ⟨-, hlegacy⟩ := Config.parse_write Sample.legacyConfig
  exact ⟨Sample.parse_legacyText, hlegacy _ Sample.parse_legacyText rfl⟩

end ImportFence
