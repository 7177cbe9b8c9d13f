import ImportFence.Path.Ancestors
import ImportFence.Proofs.FileLookup
import ImportFence.Proofs.PrunedSearch
import Mathlib.Data.List.Infix

/-!
# The directories around an absolute path

The parent of an absolute path has its components without the last one, so the ancestors of the path
have the beginnings of its components, longest first. What another path below a directory adds to
the components are its steps; the absolute form of a path therefore leads where the path does.
-/

namespace ImportFence
open Traversal

namespace Path

/-! ### An absolute path by the texts between its slashes -/

/-- The absolute path with these texts between its slashes. -/
def rooted (pieces : List String) : Path :=
  ⟨"/" ++ Text.join "/" pieces⟩

lemma isAbsolute_rooted (pieces : List String) : (rooted pieces).isAbsolute = true := by
  simp [rooted, isAbsolute]

lemma segments_rooted {pieces : List String} (h : ∀ t ∈ pieces, '/' ∉ t.toList) :
    (rooted pieces).segments = pieces.filter (· ≠ "") := by
  have hslash : rooted pieces = ⟨"" ++ "/" ++ Text.join "/" pieces⟩ := rfl
  rw [hslash, segments_slash]
  by_cases hne : pieces = []
  · subst hne
    rfl
  · have hsplit : Text.split '/' (Text.join "/" pieces) = pieces := Text.split_join hne h
    have hnone : segments ⟨""⟩ = [] := rfl
    rw [hnone, List.nil_append, segments, hsplit]

lemma components_eq_cons {p : Path} (h : p.isAbsolute = true) :
    p.components = .root :: p.relativeSteps := by
  rw [components, if_pos h, relativeSteps]

lemma components_ne_nil {p : Path} (h : p.isAbsolute = true) : p.components ≠ [] := by
  rw [components_eq_cons h]
  exact List.cons_ne_nil _ _

lemma components_rooted {pieces : List String} (h : ∀ t ∈ pieces, '/' ∉ t.toList) :
    (rooted pieces).components =
      .root :: (pieces.filter (!isIdle ·)).map Component.ofText := by
  have hidle : ∀ t : String, (decide (t ≠ ".") && decide (t ≠ "")) = !isIdle t := by
    intro t
    rw [isIdle]
    by_cases hempty : t = "" <;> by_cases hdot : t = "." <;> simp [hempty, hdot]
  rw [components_eq_cons (isAbsolute_rooted pieces), relativeSteps_eq, segments_rooted h,
    List.filter_filter]
  simp only [hidle]

lemma slash_not_mem_pieces {p : Path} {t : String} (h : t ∈ p.pieces) : '/' ∉ t.toList := by
  rw [pieces, List.mem_reverse, Text.split] at h
  obtain ⟨piece, hpiece, rfl⟩ := List.mem_map.mp h
  rw [String.toList_ofList]
  exact Text.not_mem_of_mem_splitChars hpiece

lemma eq_rooted {p : Path} (h : p.isAbsolute = true) : p = rooted p.pieces.reverse := by
  obtain ⟨text⟩ := p
  rw [isAbsolute, beq_iff_eq, List.head?_eq_some_iff] at h
  obtain ⟨cs, hcs⟩ := h
  have hfront : front ⟨text⟩ = "/" := by
    simp [front, isAbsolute, hcs]
  have hpieces : (pieces ⟨text⟩).reverse = Text.split '/' (String.ofList cs) := by
    rw [pieces, hfront, List.reverse_reverse, hcs]
    rfl
  rw [rooted, hpieces, Text.join, Text.split, List.map_map]
  have hback : String.toList ∘ String.ofList = id := by
    funext cs
    simp
  rw [hback, List.map_id, String.toList_ofList, mk.injEq, ← String.toList_inj]
  simp [hcs, Text.joinChars_splitChars]

lemma components_of_isAbsolute {p : Path} (h : p.isAbsolute = true) :
    p.components = .root :: ((p.pieces.filter (!isIdle ·)).map Component.ofText).reverse := by
  have hslash : ∀ t ∈ p.pieces.reverse, '/' ∉ t.toList := fun t ht =>
    slash_not_mem_pieces (List.mem_reverse.mp ht)
  conv_lhs => rw [eq_rooted h]
  rw [components_rooted hslash, List.filter_reverse, List.map_reverse]

/-! ### Parents and ancestors -/

lemma filter_dropWhile_isIdle (ts : List String) :
    (ts.dropWhile isIdle).filter (!isIdle ·) = ts.filter (!isIdle ·) := by
  induction ts with
  | nil => rfl
  | cons t ts ih =>
    rw [List.dropWhile_cons]
    split_ifs with hidle
    · rw [ih, List.filter_cons_of_neg (by simp [hidle])]
    · rfl

lemma isIdle_of_dropWhile {ts rest : List String} {last : String}
    (h : ts.dropWhile isIdle = last :: rest) : isIdle last = false := by
  have hhead := List.head?_dropWhile_not isIdle ts
  rw [h] at hhead
  exact hhead

lemma parent?_cases {p : Path} (h : p.isAbsolute = true) :
    (p.parent? = none ∧ p.components = [.root]) ∨
      ∃ q c, p.parent? = some q ∧ q.isAbsolute = true ∧ p.components = q.components ++ [c] := by
  have hfront : p.front = "/" := by
    rw [front, if_pos h]
  unfold parent?
  rw [hfront, components_of_isAbsolute h, ← filter_dropWhile_isIdle]
  cases hpieces : p.pieces.dropWhile isIdle with
  | nil => exact Or.inl ⟨if_neg (by decide), rfl⟩
  | cons last rest =>
    have hslash : ∀ t ∈ (rest.dropWhile isIdle).reverse, '/' ∉ t.toList := by
      intro t ht
      have hrest : t ∈ p.pieces.dropWhile isIdle := by
        rw [hpieces]
        exact List.mem_cons_of_mem _ ((List.dropWhile_sublist _).subset (List.mem_reverse.mp ht))
      exact slash_not_mem_pieces ((List.dropWhile_sublist _).subset hrest)
    refine Or.inr ⟨rooted (rest.dropWhile isIdle).reverse, Component.ofText last, rfl,
      isAbsolute_rooted _, ?_⟩
    rw [components_rooted hslash, List.filter_reverse, filter_dropWhile_isIdle,
      List.filter_cons_of_pos (by rw [isIdle_of_dropWhile hpieces]; rfl), List.map_cons,
      List.reverse_cons, List.map_reverse, List.cons_append]

lemma parent?_join_name {dir : Path} {n : String} (hn : IsName n) (h : dir.isAbsolute = true) :
    ∃ q, (dir.join ⟨n⟩).parent? = some q ∧ q.components = dir.components := by
  have hjoin : (dir.join ⟨n⟩).isAbsolute = true := (isAbsolute_join_name dir hn).trans h
  have hcomponents := components_join_name dir hn
  rcases parent?_cases hjoin with ⟨-, hroot⟩ | ⟨q, c, hq, -, hparent⟩
  · have hlength := congrArg List.length (hcomponents.symm.trans hroot)
    rw [components_eq_cons h] at hlength
    simp at hlength
  · exact ⟨q, hq, (List.append_inj' (hparent.symm.trans hcomponents) rfl).1⟩

lemma ancestorsWithin_spec {n : Nat} {p : Path} (h : p.isAbsolute = true)
    (hn : p.components.length ≤ n + 1) :
    (ancestorsWithin n p).map components = p.components.inits.tail.reverse ∧
      ∀ q ∈ ancestorsWithin n p, q.isAbsolute = true := by
  induction n generalizing p with
  | zero =>
    rcases parent?_cases h with ⟨-, hroot⟩ | ⟨q, c, -, habsolute, hp⟩
    · simp [ancestorsWithin, hroot, h]
    · rw [hp, components_eq_cons habsolute] at hn
      simp at hn
  | succ n ih =>
    rw [ancestorsWithin]
    rcases parent?_cases h with ⟨hnone, hroot⟩ | ⟨q, c, hq, habsolute, hp⟩
    · simp [hnone, hroot, h]
    · have hlength : q.components.length ≤ n + 1 := by
        rw [hp, List.length_append, List.length_singleton] at hn
        exact Nat.le_of_succ_le_succ hn
      obtain ⟨hmap, hall⟩ := ih habsolute hlength
      have hne : q.components.inits ≠ [] := List.ne_nil_of_length_pos (by simp)
      rw [hq, Option.elim_some]
      refine ⟨?_, List.forall_mem_cons.mpr ⟨h, hall⟩⟩
      rw [List.map_cons, hmap, hp, List.inits_append, List.tail_append_of_ne_nil hne]
      simp

/-- The ancestors of an absolute path are written like the beginnings of its components, longest
first. -/
lemma components_ancestors {p : Path} (h : p.isAbsolute = true) :
    p.ancestors.map components = p.components.inits.tail.reverse :=
  (ancestorsWithin_spec h (Nat.le_succ _)).1

lemma isAbsolute_of_mem_ancestors {p q : Path} (h : p.isAbsolute = true) (hq : q ∈ p.ancestors) :
    q.isAbsolute = true :=
  (ancestorsWithin_spec h (Nat.le_succ _)).2 q hq

lemma isPrefix_of_mem_ancestors {p q : Path} (h : p.isAbsolute = true) (hq : q ∈ p.ancestors) :
    q.components <+: p.components := by
  have hmem : q.components ∈ p.components.inits.tail.reverse := by
    rw [← components_ancestors h]
    exact List.mem_map_of_mem hq
  exact (List.mem_inits _ _).mp (List.mem_of_mem_tail (List.mem_reverse.mp hmem))

lemma ancestors_eq_cons {p : Path} (h : p.isAbsolute = true) :
    p.ancestors = p :: p.ancestors.tail := by
  rw [ancestors, components_eq_cons h, List.length_cons, ancestorsWithin, List.tail_cons]

lemma pairwise_ancestors {p : Path} (h : p.isAbsolute = true) :
    p.ancestors.Pairwise fun a b => b.components.length < a.components.length := by
  have hinits : p.components.inits.Pairwise fun a b => a.length < b.length := by
    rw [List.pairwise_iff_getElem]
    intro i j hi hj hij
    rw [List.length_inits] at hi hj
    simp only [List.getElem_inits, List.length_take]
    omega
  have hreverse := List.pairwise_reverse.mpr (hinits.sublist (List.tail_sublist _))
  rw [← components_ancestors h, List.pairwise_map] at hreverse
  exact hreverse

lemma exists_mem_tail_ancestors {p : Path} (h : p.isAbsolute = true) {cs : List Component}
    (hcs : cs <+: p.components) (hne : cs ≠ []) (hlt : cs.length < p.components.length) :
    ∃ q ∈ p.ancestors.tail, q.components = cs := by
  have hmem : cs ∈ p.components.inits.tail.reverse := by
    have hinits := (List.mem_inits _ _).mpr hcs
    rw [components_eq_cons h, List.inits_cons] at hinits ⊢
    simpa [hne] using hinits
  rw [← components_ancestors h, List.mem_map, ancestors_eq_cons h] at hmem
  obtain ⟨q, hq, rfl⟩ := hmem
  rcases List.mem_cons.mp hq with rfl | hq
  · exact absurd hlt (lt_irrefl _)
  · exact ⟨q, hq, rfl⟩

lemma find?_tail_ancestors {p q : Path} {f : Path → Bool} (h : p.isAbsolute = true)
    (hq : p.ancestors.tail.find? f = some q) :
    q ∈ p.ancestors.tail ∧ q.components.length < p.components.length ∧ f q = true ∧
      ∀ q' ∈ p.ancestors.tail, q.components.length < q'.components.length → f q' = false := by
  have hpairwise := pairwise_ancestors h
  rw [ancestors_eq_cons h, List.pairwise_cons] at hpairwise
  obtain ⟨hfirst, hrest⟩ := hpairwise
  obtain ⟨hf, inner, outer, htail, hinner⟩ := List.find?_eq_some_iff_append.mp hq
  have hmem : q ∈ p.ancestors.tail := List.mem_of_find?_eq_some hq
  refine ⟨hmem, hfirst q hmem, hf, ?_⟩
  intro q' hq' hlt
  rw [htail] at hq' hrest
  rcases List.mem_append.mp hq' with hmem' | hmem'
  · simpa using hinner q' hmem'
  · have hlast := (List.pairwise_append.mp hrest).2.1
    rcases List.mem_cons.mp hmem' with rfl | hmem'
    · exact absurd hlt (lt_irrefl _)
    · exact absurd hlt (lt_asymm ((List.pairwise_cons.mp hlast).1 q' hmem'))

/-! ### Another path below an absolute one -/

lemma isAbsolute_append {text : String} (h : isAbsolute ⟨text⟩ = true) (back : String) :
    isAbsolute ⟨text ++ back⟩ = true := by
  rw [isAbsolute, beq_iff_eq, List.head?_eq_some_iff] at h
  obtain ⟨cs, hcs⟩ := h
  simp [isAbsolute, hcs]

lemma isAbsolute_join {dir : Path} (h : dir.isAbsolute = true) (rest : Path) :
    (dir.join rest).isAbsolute = true := by
  rw [join]
  split_ifs with hrest
  · exact hrest
  · exact isAbsolute_append h _
  · exact isAbsolute_append (isAbsolute_append h _) _

lemma components_join {dir rest : Path} (hdir : dir.isAbsolute = true)
    (hrest : rest.isAbsolute = false) :
    (dir.join rest).components = dir.components ++ rest.steps := by
  rw [components_eq_cons hdir, components_eq_cons (isAbsolute_join hdir rest), relativeSteps,
    segments_join_relative dir hrest, List.map_append, List.filter_append, steps_eq, hrest,
    if_neg (by decide)]
  rfl

end Path

/-! ### The absolute form of a path -/

namespace FileTree

lemma WellFormed.names_of_get? {t : FileTree} (ht : t.WellFormed) {p : Place} {e : Entry}
    (h : t.get? p = some e) : ∀ n ∈ p, Path.IsName n := by
  rw [← List.nil_append p] at h
  exact fun n hn => ht.isName h hn

lemma WellFormed.foldlM_names {t : FileTree} (ht : t.WellFormed) {here names : Place}
    (h : t.get? (here ++ names) = some .directory) :
    (names.map Component.name).foldlM t.step here = .ok (here ++ names) := by
  induction names generalizing here with
  | nil => simp [pure, Except.pure]
  | cons n names ih =>
    have hhere : t.get? here = some .directory :=
      ht.get?_of_isPrefix (List.prefix_append _ _) (by simp) h
    rw [List.append_cons] at h ⊢
    rw [List.map_cons, List.foldlM_cons, bind_eq_ok_iff]
    exact ⟨here ++ [n], map_enter_eq_ok_iff.mpr ⟨hhere, rfl⟩, ih h⟩

lemma eq_of_foldlM_names {t : FileTree} {here names place : Place}
    (h : (names.map Component.name).foldlM t.step here = .ok place) : place = here ++ names := by
  induction names generalizing here with
  | nil =>
    cases h
    rw [List.append_nil]
  | cons n names ih =>
    rw [List.map_cons, List.foldlM_cons, bind_eq_ok_iff] at h
    obtain ⟨next, hstep, hrest⟩ := h
    obtain ⟨-, rfl⟩ := map_enter_eq_ok_iff.mp hstep
    rw [ih hrest, List.append_assoc]
    rfl

end FileTree

namespace Disk

variable {d : Disk}

lemma components_here (h : ∀ n ∈ d.cwd, Path.IsName n) :
    d.here.components = .root :: d.cwd.map .name := by
  have hof : d.here = Path.ofComponents (.root :: d.cwd.map .name) := by
    simp [here, Place.path, Path.ofComponents, Function.comp_def, Component.text]
  rw [hof]
  apply Path.components_absolute
  intro c hc
  obtain ⟨n, hn, rfl⟩ := List.mem_map.mp hc
  exact h n hn

lemma isAbsolute_here (d : Disk) : d.here.isAbsolute = true := by
  simp [here, Path.isAbsolute]

lemma isAbsolute_absolute (d : Disk) (p : Path) : (d.absolute p).isAbsolute = true := by
  rw [absolute]
  split_ifs with hp
  · exact hp
  · exact Path.isAbsolute_join d.isAbsolute_here p

lemma parent_not_mem_absolute (hnames : ∀ n ∈ d.cwd, Path.IsName n) {p : Path}
    (h : .parent ∉ p.components) : .parent ∉ (d.absolute p).components := by
  rw [absolute]
  split_ifs with hp
  · exact h
  · rw [Bool.not_eq_true] at hp
    rw [Path.components_join d.isAbsolute_here hp, components_here hnames]
    have hsteps : .parent ∉ p.steps := fun hmem => h (List.mem_of_mem_filter hmem)
    simp [hsteps]

lemma locate_eq_steps (hcwd : d.tree.get? d.cwd = some .directory) (p : Path) :
    d.locate p = p.steps.foldlM d.tree.step d.cwd := by
  have hcurrent : d.tree.step d.cwd .current = .ok d.cwd :=
    FileTree.map_enter_eq_ok_iff.mpr ⟨hcwd, rfl⟩
  rw [locate, Path.steps_eq, Path.components, Path.relativeSteps]
  split_ifs
  · rfl
  · rw [List.foldlM_cons, hcurrent]
    rfl
  · rfl

lemma locate_absolute (hd : d.tree.WellFormed) (hcwd : d.tree.get? d.cwd = some .directory)
    (p : Path) : d.locate (d.absolute p) = d.locate p := by
  rw [absolute]
  split_ifs with hp
  · rfl
  · have hhere : (d.cwd.map Component.name).foldlM d.tree.step [] = .ok d.cwd :=
      hd.foldlM_names hcwd
    rw [Bool.not_eq_true] at hp
    rw [locate_eq_steps hcwd p, locate, Path.components_join d.isAbsolute_here hp,
      components_here (hd.names_of_get? hcwd), List.foldlM_append, List.foldlM_cons]
    change (d.cwd.map Component.name).foldlM d.tree.step [] >>= _ = _
    rw [hhere]
    rfl

end Disk

end ImportFence
