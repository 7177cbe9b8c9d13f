import ImportFence.Proofs.ModuleNames

/-!
# Relative imports

The module of a file has the names of its directory as segments, and behind them its own stem unless
the file stands for the directory. Resolving a relative import drops that stem again: it starts from
the directory of the file, whichever file of the directory it stands in, and every dot behind the
first one leads one directory up.
-/

namespace ImportFence

namespace Path

lemma components_eq_or (p : Path) : p.components = p.steps ∨ p.components = .current :: p.steps := by
  have hcomponents : p.components = if p.isAbsolute then .root :: p.relativeSteps
      else if p.segments.head? = some "." then .current :: p.relativeSteps
      else p.relativeSteps := rfl
  rw [hcomponents, steps_eq]
  split_ifs <;> simp

lemma fileName?_of_steps {p : Path} {cs : List Component} {name : String}
    (h : p.steps = cs ++ [.name name]) : p.fileName? = some name := by
  have hlast : p.components.getLast? = some (.name name) := by
    rcases p.components_eq_or with hcomponents | hcomponents
    · rw [hcomponents, h, List.getLast?_concat]
    · rw [hcomponents, h, ← List.cons_append, List.getLast?_concat]
  rw [fileName?, hlast]

end Path

namespace Module
open Text

/-! ### Climbing -/

lemma climb?_eq {α : Type} (n : Nat) (names : List α) :
    climb? n names =
      if n ≤ names.length then some (names.take (names.length - n)) else none := by
  induction n generalizing names with
  | zero => simp [climb?]
  | succ n ih =>
    cases names with
    | nil => simp [climb?]
    | cons a names =>
      rw [climb?, ih, List.length_dropLast, List.length_cons, List.dropLast_eq_take,
        List.take_take, List.length_cons]
      by_cases hn : n ≤ names.length
      · have hmin : min (names.length + 1 - 1 - n) (names.length + 1 - 1) =
            names.length + 1 - (n + 1) := by omega
        rw [hmin, if_pos (by omega), if_pos (by omega)]
      · rw [if_neg (by omega), if_neg (by omega)]

lemma segmentsOf_join {names : List String} (h : ∀ n ∈ names, n ≠ "" ∧ IsSegment n) :
    (if Text.join "." names = "" then [] else split '.' (Text.join "." names)) = names := by
  by_cases hne : names = []
  · subst hne
    rfl
  · rw [if_neg (join_ne_empty hne fun n hn => (h n hn).1)]
    exact split_join hne fun n hn => (h n hn).2

lemma join_join {front back : List String} (hfront : ∀ n ∈ front, n ≠ "")
    (hback : ∀ n ∈ back, n ≠ "") :
    join (Text.join "." front) (Text.join "." back) = Text.join "." (front ++ back) := by
  by_cases hfront' : front = []
  · subst hfront'
    exact if_pos rfl
  by_cases hback' : back = []
  · subst hback'
    rw [join, if_neg (join_ne_empty hfront' hfront), List.append_nil]
    exact if_pos rfl
  · rw [join, if_neg (join_ne_empty hfront' hfront), if_neg (join_ne_empty hback' hback)]
    apply String.toList_inj.mp
    simp [Text.join, joinChars_append, hfront', hback']

/-! ### Files of a directory -/

/-- The file `<stem>.py` in the directory with the given names below the first source root around
it. A file that is only called `.py` has no extension: the dot belongs to its stem. -/
structure LiesIn (sourceRoots : List Path) (dirs : List String) (stem : String) (file : Path) :
    Prop where
  below : ∃ before root after, sourceRoots = before ++ root :: after ∧
    (∀ earlier ∈ before, ¬ earlier.steps <+: file.steps) ∧
    file.steps = root.steps ++ (dirs ++ [stem ++ ".py"]).map .name
  stem?_eq : file.stem? = some stem
  isSegment : IsSegment stem
  isSegment_dirs : ∀ n ∈ dirs, IsSegment n

namespace LiesIn

variable {sourceRoots : List Path} {dirs : List String} {stem : String} {file : Path}
  (h : LiesIn sourceRoots dirs stem file)

include h

lemma dirs_ne_empty : ∀ n ∈ dirs, n ≠ "" := by
  obtain ⟨before, root, after, -, -, hsteps⟩ := h.below
  intro n hn
  have hmem : .name n ∈ file.steps := by
    rw [hsteps]
    exact List.mem_append_right _ (List.mem_map_of_mem (List.mem_append_left _ hn))
  exact Path.name_ne_empty hmem

lemma stem_ne_empty : stem ≠ "" := by
  obtain ⟨before, root, after, -, -, hsteps⟩ := h.below
  rintro rfl
  have hlast : file.steps = (root.steps ++ dirs.map .name) ++ [.name ".py"] := by
    simpa using hsteps
  have hname : file.fileName? = some ".py" := Path.fileName?_of_steps hlast
  have hstem := h.stem?_eq
  rw [Path.stem?, hname] at hstem
  revert hstem
  decide

lemma ofFile?_eq :
    ofFile? sourceRoots file =
      some (Text.join "." (if stem = packageStem then dirs else dirs ++ [stem])) := by
  obtain ⟨before, root, after, rfl, hbefore, hsteps⟩ := h.below
  have hrest : belowSourceRoot? (before ++ root :: after) file =
      some ((dirs ++ [stem ++ ".py"]).map .name) := by
    have hnone : before.findSome? (fun earlier => Path.below? earlier.steps file.steps) = none := by
      rw [List.findSome?_eq_none_iff]
      intro earlier hearlier
      rw [Path.below?, Option.eq_none_iff_forall_ne_some]
      intro rest hfound
      exact hbefore earlier hearlier ⟨rest, List.isPrefixOf?_eq_some_iff_append_eq.mp hfound⟩
    have hfound : Path.below? root.steps file.steps =
        some ((dirs ++ [stem ++ ".py"]).map .name) :=
      List.isPrefixOf?_eq_some_iff_append_eq.mpr hsteps.symm
    rw [belowSourceRoot?, List.findSome?_append, hnone, Option.none_or, List.findSome?_cons, hfound]
  have hnames : namesOf? (dropExtension ((dirs ++ [stem ++ ".py"]).map .name)) =
      some (dirs ++ [stem]) := by
    rw [namesOf?_eq_some_iff, dropExtension_append, stemComponent_py h.isSegment, lastSegment,
      if_neg h.stem_ne_empty, List.map_append]
    rfl
  simp only [ofFile?, hrest, Option.bind_eq_bind, Option.bind_some, hnames, dropPackageStem,
    List.getLast?_concat, List.dropLast_concat, Option.some.injEq]
  rfl

lemma isPackageFile_eq : isPackageFile file = decide (stem = packageStem) := by
  rw [isPackageFile, h.stem?_eq]
  simp

lemma resolveRelative?_eq {module : String} (hmodule : ofFile? sourceRoots file = some module)
    (up : Nat) (rest : String) :
    resolveRelative? module (isPackageFile file) (up + 1) rest =
      if up ≤ dirs.length then some (join (Text.join "." (dirs.take (dirs.length - up))) rest)
      else none := by
  have hsegments : ∀ n ∈ if stem = packageStem then dirs else dirs ++ [stem],
      n ≠ "" ∧ IsSegment n := by
    have hdirs : ∀ n ∈ dirs, n ≠ "" ∧ IsSegment n :=
      fun n hn => ⟨h.dirs_ne_empty n hn, h.isSegment_dirs n hn⟩
    split
    · exact hdirs
    · exact List.forall_mem_append.mpr
        ⟨hdirs, List.forall_mem_singleton.mpr ⟨h.stem_ne_empty, h.isSegment⟩⟩
  have hdir : climb? (if isPackageFile file then 0 else 1)
      (if stem = packageStem then dirs else dirs ++ [stem]) = some dirs := by
    rw [h.isPackageFile_eq]
    by_cases hinit : stem = packageStem
    · simp [hinit, climb?]
    · simp [hinit, climb?_eq]
  rw [h.ofFile?_eq, Option.some.injEq] at hmodule
  subst hmodule
  simp only [resolveRelative?, segmentsOf_join hsegments, hdir, Option.bind_eq_bind,
    Option.bind_some, Nat.add_sub_cancel, climb?_eq up]
  split_ifs <;> rfl

end LiesIn

/-- A relative import with `up + 1` dots means the directory `up` levels above the one its file lies
in, and there is none exactly if the source root is not that far up. So it means the same in every
file of a directory, and each module can be written relative to any directory that it shares with
the file. -/
theorem resolveRelative?_directory {sourceRoots : List Path} {dirs : List String} {stem : String}
    {file : Path} (h : LiesIn sourceRoots dirs stem file) :
    ∃ module, ofFile? sourceRoots file = some module ∧
      (∀ up rest,
        (resolveRelative? module (isPackageFile file) (up + 1) rest = none ↔ dirs.length < up) ∧
        (up ≤ dirs.length → resolveRelative? module (isPackageFile file) (up + 1) rest =
          some (join (Text.join "." (dirs.take (dirs.length - up))) rest))) ∧
      (∀ stem' file', LiesIn sourceRoots dirs stem' file' →
        ∃ module', ofFile? sourceRoots file' = some module' ∧
          ∀ up rest, resolveRelative? module' (isPackageFile file') (up + 1) rest =
            resolveRelative? module (isPackageFile file) (up + 1) rest) ∧
      ∀ target : List String, (∀ n ∈ target, n ≠ "") →
        ∀ k ≤ dirs.length, dirs.take k <+: target →
          resolveRelative? module (isPackageFile file) (dirs.length - k + 1)
            (Text.join "." (target.drop k)) = some (Text.join "." target) := by
  refine ⟨_, h.ofFile?_eq, ?_, ?_, ?_⟩
  · intro up rest
    rw [h.resolveRelative?_eq h.ofFile?_eq]
    constructor
    · simp
    · exact fun hup => if_pos hup
  · intro stem' file' h'
    refine ⟨_, h'.ofFile?_eq, fun up rest => ?_⟩
    rw [h.resolveRelative?_eq h.ofFile?_eq, h'.resolveRelative?_eq h'.ofFile?_eq]
  · intro target htarget k hk hcommon
    have hfront : dirs.take k = target.take k := by
      rw [List.prefix_iff_eq_take.mp hcommon, List.length_take, Nat.min_eq_left hk]
    rw [h.resolveRelative?_eq h.ofFile?_eq, if_pos (Nat.sub_le _ _), Nat.sub_sub_self hk, hfront,
      join_join, List.take_append_drop]
    · exact fun n hn => htarget n (List.mem_of_mem_take hn)
    · exact fun n hn => htarget n (List.mem_of_mem_drop hn)

/-- A module and the file of its directory, below the second of two source roots. -/
theorem resolveRelative?_directory_sample :
    LiesIn [⟨"lib"⟩, ⟨"./src"⟩] ["a", "b"] "m" ⟨"src/a//b/m.py"⟩ ∧
    LiesIn [⟨"lib"⟩, ⟨"./src"⟩] ["a", "b"] "__init__" ⟨"src/a/b/__init__.py"⟩ ∧
    resolveRelative? "a.b.m" false 3 "x.y" = some "x.y" ∧
    resolveRelative? "a.b.m" false 4 "" = none ∧
    resolveRelative? "a.b.m" false 2 "x.y" = some "a.x.y" ∧
    resolveRelative? "a.b" true 2 "x.y" = some "a.x.y" := by
  have hmodule : LiesIn [⟨"lib"⟩, ⟨"./src"⟩] ["a", "b"] "m" ⟨"src/a//b/m.py"⟩ :=
    ⟨⟨[⟨"lib"⟩], ⟨"./src"⟩, [], by decide +kernel, by decide +kernel, by decide +kernel⟩,
      by decide +kernel, by decide +kernel, by decide +kernel⟩
  have hinit : LiesIn [⟨"lib"⟩, ⟨"./src"⟩] ["a", "b"] "__init__" ⟨"src/a/b/__init__.py"⟩ :=
    ⟨⟨[⟨"lib"⟩], ⟨"./src"⟩, [], by decide +kernel, by decide +kernel, by decide +kernel⟩,
      by decide +kernel, by decide +kernel, by decide +kernel⟩
  obtain ⟨module, hof, hlevels, hsiblings, htargets⟩ := resolveRelative?_directory hmodule
  obtain ⟨module', hof', hsame⟩ := hsiblings _ _ hinit
  obtain rfl : "a.b.m" = module := Option.some.inj ((by decide +kernel : some "a.b.m" = _).trans hof)
  obtain rfl : "a.b" = module' := Option.some.inj ((by decide +kernel : some "a.b" = _).trans hof')
  have habove : resolveRelative? "a.b.m" false 2 "x.y" = some "a.x.y" :=
    htargets ["a", "x", "y"] (by decide) 1 (by decide) (by decide)
  refine ⟨hmodule, hinit, ?_, ?_, habove, ?_⟩
  · exact (hlevels 2 "x.y").2 (by decide)
  · exact (hlevels 3 "").1.mpr (by decide)
  · exact (hsame 1 "x.y").trans habove

end Module

end ImportFence
