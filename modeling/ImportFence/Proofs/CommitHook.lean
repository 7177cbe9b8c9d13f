import ImportFence.Command.Hook
import ImportFence.Proofs.ConfigFile
import ImportFence.Proofs.PathAncestors
import ImportFence.Proofs.ShellWords
import Mathlib.Data.List.DropRight

/-!
# What an installed hook checks

The hook that was installed for a project holds, in its last line, the path from the repository to
the project as it is written. A shell takes the line for the check of that project exactly if every
character of the path stands for itself: the path is neither quoted nor escaped.
-/

namespace ImportFence
open Traversal

/-! ### The last line of a script -/

namespace Shell

/-- The last line of a text that ends with a line feed. -/
def lastLine (text : String) : List Char :=
  text.toList.dropLast.rtakeWhile (· ≠ '\n')

lemma rtakeWhile_append_cons {α : Type} {p : α → Bool} {c : α} (hc : p c = false)
    (front back : List α) : (front ++ c :: back).rtakeWhile p = back.rtakeWhile p := by
  induction back using List.reverseRecOn with
  | nil => simp [hc]
  | append_singleton back b ih =>
    rw [← List.cons_append, ← List.append_assoc, List.rtakeWhile_concat, List.rtakeWhile_concat, ih]

end Shell

namespace Hook

/-- The command that checks the project at a path from the repository. -/
def command (project : Path) : List (List Char) :=
  ["tagbound".toList, "check".toList] ++
    if project.text = "" then [] else [project.text.toList]

lemma lastLine_script_root {project : Path} (h : project.text = "") :
    Shell.lastLine (script project) = "tagbound check".toList := by
  have hscript : script project = script ⟨""⟩ := by
    simp [script, h]
  rw [hscript]
  decide +kernel

lemma lastLine_script {project : Path} (h : project.text ≠ "") :
    Shell.lastLine (script project) =
      ("tagbound check ".toList ++ project.packageName.toList).rtakeWhile (· ≠ '\n') := by
  have hheader : header.toList = header.toList.dropLast ++ ['\n'] := by decide +kernel
  have hscript : (script project).toList = header.toList.dropLast ++
      '\n' :: ("tagbound check ".toList ++ project.packageName.toList) ++ ['\n'] := by
    rw [script, if_neg h]
    simp only [String.toList_append]
    rw [hheader]
    simp
  rw [Shell.lastLine, hscript, List.dropLast_concat, Shell.rtakeWhile_append_cons (by decide)]

lemma length_packageName (project : Path) :
    project.text.toList.length = project.packageName.toList.length := by
  rw [Path.packageName, String.toList_ofList, List.length_map]

lemma packageName_of_literal {project : Path} (h : Shell.Literal project.text.toList) :
    project.packageName.toList = project.text.toList := by
  rw [Path.packageName, String.toList_ofList]
  refine (List.map_congr_left fun c hc => if_neg ?_).trans (List.map_id _)
  rintro rfl
  exact absurd (h.literal _ hc) (by decide)

lemma words?_line_iff {t w : List Char} (ht : t ≠ []) (hw : w.length = t.length) :
    Shell.words? ("tagbound check ".toList ++ t) =
        some (["tagbound".toList, "check".toList] ++ [w]) ↔ Shell.Literal t ∧ w = t := by
  have hread : "tagbound check ".toList.foldlM Shell.Reading.step Shell.Reading.start =
      some ⟨.bare, ["tagbound".toList, "check".toList], none⟩ := by
    decide +kernel
  rw [Shell.words?, List.foldlM_append, hread]
  exact Shell.finish?_foldlM_iff ht hw

/-- The last of several lines is too short for an argument of the length of them all. -/
lemma words?_lastLine_ne {front t w : List Char} (ht : '\n' ∈ t) (hw : w.length = t.length)
    (ws : List (List Char)) :
    Shell.words? ((front ++ t).rtakeWhile (· ≠ '\n')) ≠ some (ws ++ [w]) := by
  intro h
  obtain ⟨before, back, rfl⟩ := List.append_of_mem ht
  rw [← List.append_assoc, Shell.rtakeWhile_append_cons (by decide)] at h
  have hwords := Shell.length_words?_le h
  have hback := (List.rtakeWhile_suffix (· ≠ '\n') back).length_le
  rw [List.flatten_append, List.flatten_singleton, List.length_append] at hwords
  rw [List.length_append, List.length_cons] at hw
  omega

lemma words?_script_iff (project : Path) :
    Shell.words? (Shell.lastLine (script project)) = some (command project) ↔
      Shell.Literal project.text.toList := by
  by_cases hempty : project.text = ""
  · rw [lastLine_script_root hempty, command, if_pos hempty, hempty]
    exact iff_of_true (by decide) ⟨by simp, by simp⟩
  · have hlength := length_packageName project
    have hname : project.packageName.toList ≠ [] := by
      rw [← List.length_pos_iff, ← hlength, List.length_pos_iff]
      simpa using hempty
    rw [lastLine_script hempty, command, if_neg hempty]
    by_cases hline : '\n' ∈ project.packageName.toList
    · refine iff_of_false (words?_lastLine_ne hline hlength _) fun hliteral => ?_
      rw [packageName_of_literal hliteral] at hline
      exact absurd (hliteral.literal _ hline) (by decide)
    · have hwhole : ∀ c ∈ "tagbound check ".toList ++ project.packageName.toList,
          decide (c ≠ '\n') = true := by
        intro c hc
        rw [decide_eq_true_iff]
        rintro rfl
        exact (List.mem_append.mp hc).elim (by decide) hline
      rw [List.rtakeWhile_eq_self_iff.mpr hwhole, words?_line_iff hname hlength]
      constructor
      · rintro ⟨hliteral, htext⟩
        rwa [htext]
      · intro hliteral
        rw [packageName_of_literal hliteral]
        exact ⟨hliteral, rfl⟩

end Hook

/-! ### The script on the disk -/

namespace Disk

variable {d d' : Disk} {p : Path} {place : Place}

lemma locate_put_file (h : d.tree.get? place ≠ some .directory) (f : File) {q : Place} :
    ({ d with tree := d.tree.put place (.file f) } : Disk).locate p = .ok q ↔
      d.locate p = .ok q := by
  have hne : place ≠ [] := by
    rintro rfl
    exact h rfl
  have hdirectory : ∀ q, (d.tree.put place (.file f)).get? q = some .directory ↔
      d.tree.get? q = some .directory := by
    intro q
    by_cases hq : q = place
    · rw [hq, FileTree.get?_put_self hne]
      exact iff_of_false (fun heq => nomatch heq) h
    · rw [FileTree.get?_put_ne hq]
  exact foldlM_eq_ok_congr (FileTree.step_eq_ok_congr hdirectory)

lemma readText_of_setExecutable {text : String} {written : Disk}
    (hwrite : d.writeText p text = .ok written) (h : written.setExecutable p = .ok d') :
    d'.readText p = .ok text := by
  obtain ⟨place, x, hplace, hbefore, hwritten⟩ := writeText_eq_ok hwrite
  have hne : place ≠ [] := by
    rintro rfl
    exact hbefore rfl
  have hlocate : written.locate p = .ok place := by
    rw [hwritten]
    exact (locate_put_file hbefore _).mpr hplace
  have hfile : written.tree.get? place = some (.file ⟨.text text, x⟩) := by
    rw [hwritten]
    exact FileTree.get?_put_self hne
  rw [setExecutable, hlocate] at h
  simp only [bind, Except.bind, hfile] at h
  cases h
  rw [readText_eq_ok_iff]
  refine ⟨true, find_eq_ok_iff.mpr ⟨place, ?_, FileTree.get?_put_self hne⟩⟩
  exact (locate_put_file (by simp [hfile]) _).mpr hlocate

end Disk

/-! ### The path from a repository to a project -/

namespace Path

variable {rest : List Component} (hrest : ∀ c ∈ rest, IsStep c)

include hrest

lemma filter_current : rest.filter (· ≠ .current) = rest := by
  rw [List.filter_eq_self]
  intro c hc
  rw [decide_eq_true_iff]
  rintro rfl
  exact hrest _ hc

lemma steps_ofComponents : (ofComponents rest).steps = rest := by
  rw [steps, components_relative hrest, filter_current hrest]

lemma normalize_ofComponents : (ofComponents rest).normalize = ofComponents rest := by
  rw [normalize, steps_ofComponents hrest]

lemma isAbsolute_ofComponents : (ofComponents rest).isAbsolute = false := by
  by_contra h
  have hcomponents := components_eq_cons (Bool.eq_true_of_not_eq_false h)
  rw [components_relative hrest] at hcomponents
  exact hrest .root (hcomponents ▸ List.mem_cons_self)

lemma text_ofComponents_eq_empty_iff : (ofComponents rest).text = "" ↔ rest = [] := by
  constructor
  · intro h
    have hpath : ofComponents rest = ⟨""⟩ := congrArg Path.mk h
    rw [← components_relative hrest, hpath]
    rfl
  · rintro rfl
    rfl

lemma exists_names (hparent : .parent ∉ rest) : ∃ names : Place, rest = names.map .name := by
  induction rest with
  | nil => exact ⟨[], rfl⟩
  | cons c rest ih =>
    obtain ⟨hc, hrest⟩ := List.forall_mem_cons.mp hrest
    obtain ⟨names, rfl⟩ := ih hrest (fun hmem => hparent (List.mem_cons_of_mem _ hmem))
    cases c with
    | root => cases hc
    | current => cases hc
    | parent => exact absurd List.mem_cons_self hparent
    | name n => exact ⟨n :: names, rfl⟩

end Path

namespace Hook

variable {d d' : Disk} {path hook : Path} {force : Bool}

lemma install_eq_ok (h : install d path force = .ok (hook, d')) :
    ∃ repository, repository? d (d.absolute path) = some repository ∧
      hook = ((repository.join ⟨".git"⟩).join ⟨"hooks"⟩).join ⟨"pre-commit"⟩ ∧
      d'.readText hook = .ok (script (relative repository (d.absolute path))) := by
  unfold install at h
  cases hrepository : repository? d (d.absolute path) with
  | none =>
    simp only [hrepository] at h
    cases h
  | some repository =>
    simp only [hrepository] at h
    split at h
    · cases h
    · simp only [bind_eq_ok_iff, mapError_eq_ok_iff] at h
      obtain ⟨prepared, -, written, hwrite, done, hdone, heq⟩ := h
      cases heq
      exact ⟨repository, rfl, rfl, Disk.readText_of_setExecutable hwrite hdone⟩

lemma exists_relative {repository project : Path} (hproject : project.isAbsolute = true)
    (h : repository ∈ project.ancestors) :
    ∃ rest, project.components = repository.components ++ rest ∧ (∀ c ∈ rest, Path.IsStep c) ∧
      relative repository project = Path.ofComponents rest := by
  obtain ⟨rest, hrest⟩ := Path.isPrefix_of_mem_ancestors hproject h
  have hsteps : ∀ c ∈ rest, Path.IsStep c := by
    intro c hc
    have hrepository := Path.isAbsolute_of_mem_ancestors hproject h
    rw [Path.components_eq_cons hproject, Path.components_eq_cons hrepository, List.cons_append,
      List.cons.injEq] at hrest
    apply Path.isStep_of_mem (p := project)
    rw [← hrest.2]
    exact List.mem_append_right _ hc
  have hbelow : Path.below? repository.components project.components = some rest :=
    List.isPrefixOf?_eq_some_iff_append_eq.mpr hrest
  refine ⟨rest, hrest.symm, hsteps, ?_⟩
  rw [relative, hbelow]
  exact congrArg Path.ofComponents (Path.filter_current hsteps)

/-- The hook that was installed is that of a repository around the project, and its last line names
the project by its path from there. A shell takes the line for the check of the project, without an
argument if the repository is the project, exactly if the path is literal. -/
theorem lastLine_install_iff (h : install d path force = .ok (hook, d')) :
    ∃ repository project text,
      repository ∈ (d.absolute path).ancestors ∧
      d.isDirectory (repository.join ⟨".git"⟩) = true ∧
      hook = ((repository.join ⟨".git"⟩).join ⟨"hooks"⟩).join ⟨"pre-commit"⟩ ∧
      d'.readText hook = .ok text ∧
      (repository.join project).components = (d.absolute path).components ∧
      project.normalize = project ∧
      (project.text = "" ↔ repository.components = (d.absolute path).components) ∧
      (Shell.words? (Shell.lastLine text) = some (command project) ↔
        Shell.Literal project.text.toList) ∧
      ∀ place, d.tree.WellFormed → d.tree.get? d.cwd = some .directory →
        d.locate path = .ok place → .parent ∉ path.components →
        ∃ root names, d.locate repository = .ok root ∧ place = root ++ names ∧
          project = names.path := by
  obtain ⟨repository, hrepository, hhook, htext⟩ := install_eq_ok h
  rw [repository?] at hrepository
  have habsolute := d.isAbsolute_absolute path
  have hmem := List.mem_of_find?_eq_some hrepository
  have hgit := List.find?_some hrepository
  obtain ⟨rest, hcomponents, hsteps, hrelative⟩ := exists_relative habsolute hmem
  rw [hrelative] at htext
  refine ⟨repository, Path.ofComponents rest, _, hmem, hgit, hhook, htext, ?_,
    Path.normalize_ofComponents hsteps, ?_, words?_script_iff _, ?_⟩
  · rw [Path.components_join (Path.isAbsolute_of_mem_ancestors habsolute hmem)
      (Path.isAbsolute_ofComponents hsteps), Path.steps_ofComponents hsteps, hcomponents]
  · rw [Path.text_ofComponents_eq_empty_iff hsteps, hcomponents]
    simp
  · intro place hd hcwd hplace hparent
    have hparent := Disk.parent_not_mem_absolute (hd.names_of_get? hcwd) hparent
    obtain ⟨names, rfl⟩ := Path.exists_names hsteps fun hmem => hparent <| by
      rw [hcomponents]
      exact List.mem_append_right _ hmem
    rw [← Disk.locate_absolute hd hcwd, Disk.locate, hcomponents, List.foldlM_append,
      bind_eq_ok_iff] at hplace
    obtain ⟨root, hroot, hnames⟩ := hplace
    exact ⟨root, names, hroot, FileTree.eq_of_foldlM_names hnames,
      (Place.path_eq_ofComponents names).symm⟩

end Hook

/-! ### A path that a shell takes apart -/

namespace Sample

/-- A repository with two projects. -/
def hookDisk : Disk where
  tree := ⟨[([".git"], .directory), (["back-end"], .directory), (["my project"], .directory)]⟩
  cwd := []

lemma hookDisk_wellFormed : hookDisk.tree.WellFormed :=
  ⟨by decide +kernel, by decide +kernel, by decide +kernel⟩

lemma exists_installed {path : Path} (h : (Hook.install hookDisk path false).isOk = true) :
    ∃ hook d', Hook.install hookDisk path false = .ok (hook, d') := by
  cases hinstall : Hook.install hookDisk path false with
  | error e => simp [hinstall, Except.isOk, Except.toBool] at h
  | ok installed => exact ⟨installed.1, installed.2, rfl⟩

end Sample

namespace Hook

theorem lastLine_install_iff_sample :
    ∃ (hook repository project : Path) (d' : Disk) (text : String),
      install Sample.hookDisk ⟨"./back-end"⟩ false = .ok (hook, d') ∧
      d'.readText hook = .ok text ∧
      (repository.join project).components = [.root, .name "back-end"] ∧
      Shell.words? (Shell.lastLine text) = some (command project) := by
  obtain ⟨hook, d', hinstall⟩ := Sample.exists_installed
    (by decide +kernel : (install Sample.hookDisk ⟨"./back-end"⟩ false).isOk = true)
  obtain ⟨repository, project, text, -, -, -, htext, hcomponents, -, -, hwords, hproject⟩ :=
    lastLine_install_iff hinstall
  obtain ⟨root, names, -, hplace, rfl⟩ := hproject ["back-end"] Sample.hookDisk_wellFormed rfl
    (by decide +kernel) (by decide +kernel)
  refine ⟨hook, repository, _, d', text, hinstall, htext, ?_, hwords.mpr ?_⟩
  · rw [hcomponents]
    decide +kernel
  · have hone : (Place.path ["back-end"]).text = "back-end" := by
      simp [Place.path, Text.join, Text.joinChars]
    have hnone : (Place.path []).text = "" := rfl
    rcases List.append_eq_singleton_iff.mp hplace.symm with ⟨-, rfl⟩ | ⟨-, rfl⟩
    · rw [hone]
      decide
    · rw [hnone]
      decide

/-- A blank in the path parts it into two arguments. -/
theorem not_forall_lastLine_install :
    ¬ ∀ (d d' : Disk) (path hook repository : Path) (force : Bool) (root names : Place),
      d.tree.WellFormed → d.tree.get? d.cwd = some .directory →
      repository? d (d.absolute path) = some repository → d.locate repository = .ok root →
      d.locate path = .ok (root ++ names) → d.tree.get? (root ++ names) = some .directory →
      install d path force = .ok (hook, d') →
      ∃ text, d'.readText hook = .ok text ∧
        Shell.words? (Shell.lastLine text) = some (command names.path) := by
  intro h
  obtain ⟨hook, d', hinstall⟩ := Sample.exists_installed
    (by decide +kernel : (install Sample.hookDisk ⟨"my project"⟩ false).isOk = true)
  have hrepository : repository? Sample.hookDisk (Sample.hookDisk.absolute ⟨"my project"⟩) =
      some ⟨"/"⟩ := by
    decide +kernel
  obtain ⟨text, htext, hwords⟩ := h Sample.hookDisk d' ⟨"my project"⟩ hook ⟨"/"⟩ false []
    ["my project"] Sample.hookDisk_wellFormed rfl hrepository (by decide +kernel)
    (by decide +kernel) rfl hinstall
  obtain ⟨repository, hfound, -, hscript⟩ := install_eq_ok hinstall
  cases hrepository.symm.trans hfound
  cases htext.symm.trans hscript
  revert hwords
  decide +kernel

end Hook

end ImportFence
