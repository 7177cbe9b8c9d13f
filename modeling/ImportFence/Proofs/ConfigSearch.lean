import ImportFence.Command.Settings
import ImportFence.Proofs.PathAncestors

/-!
# The configuration around a directory

A step of a path changes a place by one name at most. On its way from the root directory to a place,
a path therefore passes every directory around the place, and behind the last visit to one of them
it passes all those further in. A search that follows the written path backwards thus meets the
nearest configuration around the place first, unless one lies in a directory that the path left
again through `..`.
-/

namespace ImportFence
open Traversal

/-! ### The directories on the way -/

namespace FileTree

variable {t : FileTree} {here next start place inner : Place} {c : Component} {cs : List Component}

lemma step_eq_ok_cases (h : t.step here c = .ok next) :
    next <+: here ∨ ∃ n, c = .name n ∧ next = here ++ [n] := by
  cases c with
  | root =>
    cases h
    exact Or.inl List.nil_prefix
  | current =>
    obtain ⟨-, rfl⟩ := map_enter_eq_ok_iff.mp h
    exact Or.inl List.prefix_rfl
  | parent =>
    obtain ⟨-, rfl⟩ := map_enter_eq_ok_iff.mp h
    exact Or.inl (List.dropLast_prefix _)
  | name n =>
    obtain ⟨-, rfl⟩ := map_enter_eq_ok_iff.mp h
    exact Or.inr ⟨n, rfl, rfl⟩

/-- A way to a place passes each directory around the place that does not lie around its start. -/
lemma exists_front (h : cs.foldlM t.step start = .ok place) (hinner : inner <+: place)
    (hstart : inner <+: start → inner = start) :
    ∃ front, front <+: cs ∧ front.foldlM t.step start = .ok inner := by
  -- from the last step back: either it led into `inner`, or `inner` lies around the place before
  induction cs using List.reverseRecOn generalizing place with
  | nil =>
    cases h
    rw [hstart hinner]
    exact ⟨[], List.prefix_rfl, rfl⟩
  | append_singleton cs c ih =>
    have hwhole := h
    rw [List.foldlM_append, bind_eq_ok_iff] at h
    obtain ⟨before, hbefore, hstep⟩ := h
    simp only [List.foldlM_cons, List.foldlM_nil, bind_pure] at hstep
    have hearlier : inner <+: before →
        ∃ front, front <+: cs ++ [c] ∧ front.foldlM t.step start = .ok inner := by
      intro hinner
      obtain ⟨front, hfront, hfold⟩ := ih hbefore hinner
      exact ⟨front, hfront.trans (List.prefix_append _ _), hfold⟩
    rcases step_eq_ok_cases hstep with hup | ⟨n, rfl, rfl⟩
    · exact hearlier (hinner.trans hup)
    · rcases List.prefix_concat_iff.mp hinner with rfl | hinner
      · exact ⟨_, List.prefix_rfl, hwhole⟩
      · exact hearlier hinner

lemma isPrefix_of_foldlM (hcs : ∀ c ∈ cs, c ≠ .root ∧ c ≠ .parent)
    (h : cs.foldlM t.step start = .ok place) : start <+: place := by
  induction cs generalizing start with
  | nil =>
    cases h
    exact List.prefix_rfl
  | cons c cs ih =>
    obtain ⟨hc, hcs⟩ := List.forall_mem_cons.mp hcs
    rw [List.foldlM_cons, bind_eq_ok_iff] at h
    obtain ⟨next, hstep, hrest⟩ := h
    refine List.IsPrefix.trans ?_ (ih hcs hrest)
    cases c with
    | root => exact absurd rfl hc.1
    | parent => exact absurd rfl hc.2
    | current =>
      obtain ⟨-, rfl⟩ := map_enter_eq_ok_iff.mp hstep
      exact List.prefix_rfl
    | name n =>
      obtain ⟨-, rfl⟩ := map_enter_eq_ok_iff.mp hstep
      exact List.prefix_append _ _

end FileTree

namespace Disk

variable {d : Disk} {requested : Path} {place inner outer : Place}

/-- A path, as it is written, leads through a place on its way from the root directory. -/
def Passes (d : Disk) (p : Path) (q : Place) : Prop :=
  ∃ front, front <+: (d.absolute p).components ∧ front ≠ [] ∧
    front.foldlM d.tree.step d.cwd = .ok q

lemma passes_of_mem_ancestors {q : Path} (hq : q ∈ (d.absolute requested).ancestors)
    (houter : d.locate q = .ok outer) : d.Passes requested outer :=
  have habsolute := d.isAbsolute_absolute requested
  ⟨q.components, Path.isPrefix_of_mem_ancestors habsolute hq,
    Path.components_ne_nil (Path.isAbsolute_of_mem_ancestors habsolute hq), houter⟩

lemma Passes.isPrefix (hd : d.tree.WellFormed) (hcwd : d.tree.get? d.cwd = some .directory)
    (hplace : d.locate requested = .ok place) (hparent : .parent ∉ requested.components)
    (h : d.Passes requested inner) : inner <+: place := by
  obtain ⟨front, ⟨back, hback⟩, hne, hfront⟩ := h
  have habsolute := d.isAbsolute_absolute requested
  have hwhole := Disk.locate_absolute hd hcwd requested
  rw [hplace, locate, ← hback, List.foldlM_append, hfront] at hwhole
  refine FileTree.isPrefix_of_foldlM ?_ hwhole
  intro c hc
  have hmem : c ∈ (d.absolute requested).components := by
    rw [← hback]
    exact List.mem_append_right _ hc
  refine ⟨?_, fun heq => parent_not_mem_absolute (hd.names_of_get? hcwd) hparent (heq ▸ hmem)⟩
  -- the root's slash is the first component and no other
  obtain ⟨first, front, rfl⟩ := List.exists_cons_of_ne_nil hne
  rw [Path.components_eq_cons habsolute, List.cons_append, List.cons.injEq] at hback
  have hstep : c ∈ (d.absolute requested).relativeSteps := by
    rw [← hback.2]
    exact List.mem_append_right _ hc
  rintro rfl
  exact Path.isStep_of_mem hstep

/-- Behind a beginning of an absolute path that leads to `outer`, some proper ancestor leads to each
directory properly around the end of the path, unless the directory lies properly around `outer`. -/
lemma exists_tail_ancestor {a : Path} (ha : a.isAbsolute = true) {front : List Component}
    (hfront : front <+: a.components) (hne : front ≠ [])
    (houter : front.foldlM d.tree.step d.cwd = .ok outer) (hplace : d.locate a = .ok place)
    (hinner : inner <+: place) (hproper : inner ≠ place)
    (hbetween : inner <+: outer → inner = outer) :
    ∃ q ∈ a.ancestors.tail, front <+: q.components ∧ d.locate q = .ok inner := by
  obtain ⟨back, hback⟩ := hfront
  rw [locate, ← hback, List.foldlM_append, houter] at hplace
  obtain ⟨middle, ⟨rest, rfl⟩, hmiddle⟩ := FileTree.exists_front hplace hinner hbetween
  have hinner : (front ++ middle).foldlM d.tree.step d.cwd = .ok inner := by
    rw [List.foldlM_append, houter]
    exact hmiddle
  have hrest : rest ≠ [] := by
    rintro rfl
    rw [List.append_nil] at hplace
    cases hmiddle.symm.trans hplace
    exact hproper rfl
  have hlt : (front ++ middle).length < a.components.length := by
    have hpos := List.length_pos_of_ne_nil hrest
    simp only [← hback, List.length_append]
    omega
  have hbegins : front ++ middle <+: a.components := by
    rw [← hback, ← List.append_assoc]
    exact List.prefix_append _ _
  obtain ⟨q, hq, hcomponents⟩ :=
    Path.exists_mem_tail_ancestors ha hbegins (by simp [hne]) hlt
  refine ⟨q, hq, hcomponents ▸ List.prefix_append _ _, ?_⟩
  rw [locate, hcomponents]
  exact hinner

/-! ### Configurations in directories -/

/-- A directory holds a configuration. -/
def HoldsConfig (d : Disk) (dir : Place) : Prop :=
  ∃ f, d.tree.get? (dir ++ [configFileName.text]) = some (.file f)

lemma HoldsConfig.directory (hd : d.tree.WellFormed) (h : d.HoldsConfig place) :
    d.tree.get? place = some .directory := by
  obtain ⟨f, hf⟩ := h
  exact hd.get?_of_isPrefix (List.prefix_append _ _) (by simp) hf

lemma isName_configFileName : Path.IsName configFileName.text := by
  decide

lemma isFile_join_config (hd : d.tree.WellFormed) (p : Path) :
    d.isFile (p.join configFileName) = true ↔
      ∃ dir, d.locate p = .ok dir ∧ d.HoldsConfig dir := by
  have hlocate : ∀ q, d.locate (p.join configFileName) = .ok q ↔ _ := fun q =>
    locate_join_name isName_configFileName p
  simp only [isFile_iff, find_eq_ok_iff, hlocate]
  constructor
  · rintro ⟨f, -, ⟨dir, hdir, -, rfl⟩, hf⟩
    exact ⟨dir, hdir, f, hf⟩
  · rintro ⟨dir, hdir, hholds⟩
    have hdirectory := hholds.directory hd
    obtain ⟨f, hf⟩ := hholds
    exact ⟨f, _, ⟨dir, hdir, hdirectory, rfl⟩, hf⟩

/-- The nearest of the directories properly around a place that hold a configuration. -/
structure Nearest (d : Disk) (place outer : Place) : Prop where
  around : outer <+: place
  proper : outer ≠ place
  holds : d.HoldsConfig outer
  nearest : ∀ q, q <+: place → q ≠ place → d.HoldsConfig q → q <+: outer

lemma Nearest.unique {outer' : Place} (h : d.Nearest place outer) (h' : d.Nearest place outer') :
    outer = outer' :=
  (h'.nearest outer h.around h.proper h.holds).eq_of_length_le
    (h.nearest outer' h'.around h'.proper h'.holds).length_le

end Disk

/-! ### The search -/

namespace ConfigSource

/-- Where the configuration for the directory at a place comes from: the directory itself, else the
nearest one around it that holds one. The project lies there. -/
structure Encloses (d : Disk) (requested : Path) (place : Place) (s : ConfigSource) : Prop where
  project_iff : (∃ p, s = .project p) ↔ d.HoldsConfig place
  ancestor_iff : ∀ outer,
    (∃ p, s = .ancestor p ∧ d.locate p = .ok (outer ++ [configFileName.text])) ↔
      ¬ d.HoldsConfig place ∧ d.Nearest place outer
  absent_iff : s = .absent ↔ ∀ q, q <+: place → ¬ d.HoldsConfig q
  projectRoot : ∃ root, d.locate (s.projectRoot requested) = .ok root ∧ root <+: place

variable {d : Disk} {requested : Path} {place : Place}

lemma encloses_project (hplace : d.locate requested = .ok place) (hown : d.HoldsConfig place)
    (p : Path) : (project p).Encloses d requested place where
  project_iff := ⟨fun _ => hown, fun _ => ⟨p, rfl⟩⟩
  ancestor_iff outer := by
    constructor
    · rintro ⟨_, h, -⟩
      cases h
    · rintro ⟨h, -⟩
      exact absurd hown h
  absent_iff := by
    constructor
    · intro h
      cases h
    · intro h
      exact absurd hown (h place List.prefix_rfl)
  projectRoot := ⟨place, hplace, List.prefix_rfl⟩

lemma encloses_ancestor (hd : d.tree.WellFormed) (hown : ¬ d.HoldsConfig place) {q : Path}
    (hq : q.isAbsolute = true) {outer : Place} (houter : d.locate q = .ok outer)
    (hnearest : d.Nearest place outer) :
    (ancestor (q.join configFileName)).Encloses d requested place where
  project_iff := by
    constructor
    · rintro ⟨p, h⟩
      cases h
    · exact fun h => absurd h hown
  ancestor_iff outer' := by
    have hfile : d.locate (q.join configFileName) = .ok (outer ++ [configFileName.text]) :=
      (Disk.locate_join_name Disk.isName_configFileName q).mpr
        ⟨outer, houter, hnearest.holds.directory hd, rfl⟩
    constructor
    · rintro ⟨p, h, hp⟩
      cases h
      have hsame := hfile.symm.trans hp
      rw [Except.ok.injEq] at hsame
      exact ⟨hown, List.append_cancel_right hsame ▸ hnearest⟩
    · rintro ⟨-, h⟩
      cases hnearest.unique h
      exact ⟨_, rfl, hfile⟩
  absent_iff := by
    constructor
    · intro h
      cases h
    · intro h
      exact absurd hnearest.holds (h outer hnearest.around)
  projectRoot := by
    obtain ⟨dir, hdir, hcomponents⟩ : ∃ dir, (q.join configFileName).parent? = some dir ∧ _ :=
      Path.parent?_join_name Disk.isName_configFileName hq
    refine ⟨outer, ?_, hnearest.around⟩
    rw [projectRoot, hdir, Option.getD_some, Disk.locate, hcomponents]
    exact houter

lemma encloses_absent (hplace : d.locate requested = .ok place)
    (hnone : ∀ q, q <+: place → ¬ d.HoldsConfig q) : absent.Encloses d requested place where
  project_iff := by
    constructor
    · rintro ⟨p, h⟩
      cases h
    · exact fun h => absurd h (hnone place List.prefix_rfl)
  ancestor_iff outer := by
    constructor
    · rintro ⟨_, h, -⟩
      cases h
    · rintro ⟨-, h⟩
      exact absurd h.holds (hnone outer h.around)
  absent_iff := ⟨fun _ => hnone, fun _ => rfl⟩
  projectRoot := ⟨place, hplace, List.prefix_rfl⟩

/-- The test that the search makes for a path. -/
def holds (d : Disk) (p : Path) : Bool :=
  d.isFile (p.join configFileName)

lemma resolve_cases (d : Disk) (requested : Path) :
    (holds d requested = true ∧
      resolve d requested none = .project (requested.join configFileName)) ∨
    (holds d requested = false ∧
      ((∃ q, (d.absolute requested).ancestors.tail.find? (holds d) = some q ∧
          resolve d requested none = .ancestor (q.join configFileName)) ∨
        ((d.absolute requested).ancestors.tail.find? (holds d) = none ∧
          resolve d requested none = .absent))) := by
  have haround : ∀ ps : List Path, (ps.map (·.join configFileName)).find? d.isFile =
      (ps.find? (holds d)).map (·.join configFileName) := fun _ => List.find?_map
  simp only [resolve]
  rw [haround]
  cases hown : holds d requested with
  | true => exact Or.inl ⟨rfl, if_pos hown⟩
  | false =>
    rw [holds] at hown
    rw [hown, if_neg (by decide)]
    cases (d.absolute requested).ancestors.tail.find? (holds d) with
    | none => exact Or.inr ⟨rfl, Or.inr ⟨rfl, rfl⟩⟩
    | some q => exact Or.inr ⟨rfl, Or.inl ⟨q, rfl, rfl⟩⟩

lemma holds_eq_true_iff (hd : d.tree.WellFormed) {p : Path} (hplace : d.locate p = .ok place) :
    holds d p = true ↔ d.HoldsConfig place := by
  rw [holds, Disk.isFile_join_config hd]
  constructor
  · rintro ⟨dir, hdir, hconfig⟩
    cases hplace.symm.trans hdir
    exact hconfig
  · exact fun hconfig => ⟨place, hplace, hconfig⟩

section Requested

variable (hd : d.tree.WellFormed) (hcwd : d.tree.get? d.cwd = some .directory)
  (hplace : d.locate requested = .ok place)

include hd hcwd hplace

lemma not_holdsConfig_of_find?_eq_none (hown : ¬ d.HoldsConfig place)
    (hnone : (d.absolute requested).ancestors.tail.find? (holds d) = none) {inner : Place}
    (hinner : inner <+: place) : ¬ d.HoldsConfig inner := by
  intro hholds
  have hproper : inner ≠ place := fun heq => hown (heq ▸ hholds)
  have habsolute := d.isAbsolute_absolute requested
  have hroot : [.root] <+: (d.absolute requested).components := by
    rw [Path.components_eq_cons habsolute]
    exact List.prefix_append _ _
  rw [← Disk.locate_absolute hd hcwd] at hplace
  obtain ⟨q, hq, -, hlocate⟩ := Disk.exists_tail_ancestor habsolute hroot (List.cons_ne_nil _ _)
    rfl hplace hinner hproper List.prefix_nil.mp
  exact List.find?_eq_none.mp hnone q hq ((holds_eq_true_iff hd hlocate).mpr hholds)

lemma nearest_of_find? (hown : ¬ d.HoldsConfig place) {q : Path} {outer : Place}
    (hfind : (d.absolute requested).ancestors.tail.find? (holds d) = some q)
    (houter : d.locate q = .ok outer) (haround : outer <+: place) : d.Nearest place outer := by
  have habsolute := d.isAbsolute_absolute requested
  obtain ⟨hq, -, hholds, hbefore⟩ := Path.find?_tail_ancestors habsolute hfind
  have hmem : q ∈ (d.absolute requested).ancestors := List.mem_of_mem_tail hq
  have hne := Path.components_ne_nil (Path.isAbsolute_of_mem_ancestors habsolute hmem)
  rw [holds_eq_true_iff hd houter] at hholds
  refine ⟨haround, fun heq => hown (heq ▸ hholds), hholds, ?_⟩
  intro inner hinner hproper hconfig
  by_contra hout
  rw [← Disk.locate_absolute hd hcwd] at hplace
  obtain ⟨q', hq', hbegins, hlocate⟩ := Disk.exists_tail_ancestor habsolute
    (Path.isPrefix_of_mem_ancestors habsolute hmem) hne houter hplace hinner hproper
    (fun h => absurd h hout)
  -- `q'` lies behind `q` and was asked before it
  have hlt : q.components.length < q'.components.length := by
    refine lt_of_le_of_ne hbegins.length_le fun heq => hout ?_
    have hlocate' : d.locate q = .ok inner := by
      rw [Disk.locate, hbegins.eq_of_length heq]
      exact hlocate
    cases houter.symm.trans hlocate'
    exact List.prefix_rfl
  have hpassed := hbefore q' hq' hlt
  rw [(holds_eq_true_iff hd hlocate).mpr hconfig] at hpassed
  cases hpassed

lemma encloses_of_find? (hown : ¬ d.HoldsConfig place)
    (hoff : ∀ q, d.Passes requested q → d.HoldsConfig q → q <+: place) {q : Path}
    (hfind : (d.absolute requested).ancestors.tail.find? (holds d) = some q) :
    (ancestor (q.join configFileName)).Encloses d requested place := by
  have hmem := List.mem_of_mem_tail (List.mem_of_find?_eq_some hfind)
  have hfile : holds d q = true := List.find?_some hfind
  obtain ⟨outer, houter, hconfig⟩ := (Disk.isFile_join_config hd q).mp hfile
  have haround := hoff outer (Disk.passes_of_mem_ancestors hmem houter) hconfig
  exact encloses_ancestor hd hown
    (Path.isAbsolute_of_mem_ancestors (d.isAbsolute_absolute requested) hmem) houter
    (nearest_of_find? hd hcwd hplace hown hfind houter haround)

end Requested

/-- The search finds the configuration of a directory exactly if the directory holds one, and finds
none only if no directory around holds one. It picks the nearest one around, unless one lies in a
directory that the path passes but that does not lie around the place; a path without `..` passes no
such directory. -/
theorem resolve_encloses (hd : d.tree.WellFormed) (hcwd : d.tree.get? d.cwd = some .directory)
    (hplace : d.locate requested = .ok place) :
    ((∃ p, resolve d requested none = .project p) ↔ d.HoldsConfig place) ∧
    (resolve d requested none = .absent → ∀ q, q <+: place → ¬ d.HoldsConfig q) ∧
    ((∀ q, d.Passes requested q → d.HoldsConfig q → q <+: place) →
      (resolve d requested none).Encloses d requested place) ∧
    (.parent ∉ requested.components → ∀ q, d.Passes requested q → q <+: place) := by
  have hpasses : .parent ∉ requested.components → ∀ q, d.Passes requested q → q <+: place :=
    fun hparent q hq => hq.isPrefix hd hcwd hplace hparent
  have hholds := holds_eq_true_iff hd hplace
  rcases resolve_cases d requested with ⟨hown, hresolve⟩ | ⟨hlacks, hsearch⟩
  · have hencloses := encloses_project hplace (hholds.mp hown) (requested.join configFileName)
    rw [← hresolve] at hencloses
    exact ⟨hencloses.project_iff, hencloses.absent_iff.mp, fun _ => hencloses, hpasses⟩
  · have hlacks : ¬ d.HoldsConfig place := fun hconfig => by simp [hholds.mpr hconfig] at hlacks
    rcases hsearch with ⟨q, hfind, hresolve⟩ | ⟨hnone, hresolve⟩
    · rw [hresolve]
      have hproject : ¬ ∃ p, ancestor (q.join configFileName) = .project p := by
        rintro ⟨p, h⟩
        cases h
      have habsent : ancestor (q.join configFileName) ≠ .absent := by
        intro h
        cases h
      exact ⟨iff_of_false hproject hlacks, fun h => absurd h habsent,
        fun hoff => encloses_of_find? hd hcwd hplace hlacks hoff hfind, hpasses⟩
    · have hencloses := encloses_absent hplace
        fun inner => not_holdsConfig_of_find?_eq_none hd hcwd hplace hlacks hnone
      rw [← hresolve] at hencloses
      exact ⟨hencloses.project_iff, hencloses.absent_iff.mp, fun _ => hencloses, hpasses⟩

end ConfigSource

/-! ### A configuration beside the way up -/

namespace Sample

/-- Within the only directory that holds a configuration. -/
def configDisk : Disk where
  tree := ⟨[(["core"], .directory), (["core", "billing"], .directory),
    (["core", configFileName.text], Entry.ofText "")]⟩
  cwd := ["core"]

lemma configDisk_wellFormed : configDisk.tree.WellFormed :=
  ⟨by decide +kernel, by decide +kernel, by decide +kernel⟩

lemma eq_of_holdsConfig {dir : Place} (h : configDisk.HoldsConfig dir) : dir = ["core"] := by
  obtain ⟨f, hf⟩ := h
  have hfiles : ∀ entry ∈ configDisk.tree.entries, entry.2.isDirectory = false →
      entry.1 = ["core"] ++ [configFileName.text] := by
    decide +kernel
  exact List.append_cancel_right (hfiles _ (FileTree.mem_of_get? (by simp) hf) rfl)

end Sample

namespace ConfigSource

/-- The path leaves a directory and comes back, within the one that holds the configuration. -/
theorem resolve_encloses_sample :
    resolve Sample.configDisk ⟨"./billing/../billing"⟩ none =
      .ancestor ⟨"/core/./billing/../tagbound.toml"⟩ ∧
    (resolve Sample.configDisk ⟨"./billing/../billing"⟩ none).Encloses Sample.configDisk
      ⟨"./billing/../billing"⟩ ["core", "billing"] ∧
    ∀ q, Sample.configDisk.Passes ⟨"billing"⟩ q → q <+: ["core", "billing"] := by
  have hcwd : Sample.configDisk.tree.get? Sample.configDisk.cwd = some .directory := by
    decide +kernel
  refine ⟨by decide +kernel, ?_, ?_⟩
  · refine (resolve_encloses Sample.configDisk_wellFormed hcwd (by decide +kernel)).2.2.1 ?_
    intro q _ hholds
    rw [Sample.eq_of_holdsConfig hholds]
    exact List.prefix_append _ _
  · exact (resolve_encloses Sample.configDisk_wellFormed hcwd (by decide +kernel)).2.2.2
      (by decide +kernel)

/-- Upward of the directory that holds the configuration, the search goes back into it. -/
theorem not_forall_resolve_encloses :
    ¬ ∀ (d : Disk) (requested : Path) (place : Place), d.tree.WellFormed →
      d.tree.get? d.cwd = some .directory → d.locate requested = .ok place →
      d.tree.get? place = some .directory →
      (resolve d requested none).Encloses d requested place := by
  intro h
  have hencloses := h Sample.configDisk ⟨".."⟩ [] Sample.configDisk_wellFormed
    (by decide +kernel) (by decide +kernel) rfl
  have habsent : resolve Sample.configDisk ⟨".."⟩ none = .absent := by
    refine hencloses.absent_iff.mpr fun q hq hholds => ?_
    cases List.prefix_nil.mp hq
    exact absurd (Sample.eq_of_holdsConfig hholds) (by simp)
  have hinward : resolve Sample.configDisk ⟨".."⟩ none = .ancestor ⟨"/core/tagbound.toml"⟩ := by
    decide +kernel
  rw [hinward] at habsent
  cases habsent

end ConfigSource

end ImportFence
