import ImportFence.Proofs.SimpleStatements
import ImportFence.Proofs.StatementWalk
import Mathlib.Data.List.DropRight

/-!
# The pieces of a line

A line is cut at its semicolons. The import statement in a piece that holds the word `import` is what
stands behind its last colon, since the header of a block may stand before it; the statements that
make up the interface are whole pieces. The simple statements of a line are read off its pieces, one
by one.
-/

namespace ImportFence.Source

open Statement

def pieces (line : List Token) : List (List Token) :=
  line.splitOnP (·.kind = .mark ";")

/-- Whether a piece holds the word that only import statements have. -/
def holdsImport (piece : List Token) : Bool :=
  piece.any (·.kind = .keyword "import")

/-- The tokens of the import statements in pieces of a line. -/
def segmentsOf (pieces : List (List Token)) : List (List Token) :=
  (pieces.filter holdsImport).map (·.rtakeWhile (·.kind ≠ .mark ":"))

def importSegments (line : List Token) : List (List Token) :=
  segmentsOf (pieces line)

/-- Tokens that are written as an import statement. -/
structure WrittenImport where
  form : ImportForm
  tokens : List Token
  written : kindsOf tokens = form.kinds

/-- The import statement, unless it only changes the language. -/
def WrittenImport.statement? (w : WrittenImport) : Option ImportStatement :=
  w.form.request?.map (importOver · w.tokens)

/-- Segments of tokens are written as import statements, and these are the ones that ask for
something. -/
def Imports (segments : List (List Token)) (found : List ImportStatement) : Prop :=
  ∃ ws : List WrittenImport, ws.map (·.tokens) = segments ∧ ws.filterMap (·.statement?) = found

lemma Imports.nil : Imports [] [] :=
  ⟨[], rfl, rfl⟩

lemma Imports.append {segments segments' : List (List Token)} {found found' : List ImportStatement}
    (h : Imports segments found) (h' : Imports segments' found') :
    Imports (segments ++ segments') (found ++ found') := by
  obtain ⟨ws, rfl, rfl⟩ := h
  obtain ⟨ws', rfl, rfl⟩ := h'
  exact ⟨ws ++ ws', List.map_append, List.filterMap_append⟩

lemma segmentsOf_append (ps qs : List (List Token)) :
    segmentsOf (ps ++ qs) = segmentsOf ps ++ segmentsOf qs := by
  simp [segmentsOf]

lemma not_semicolon_of_free {tokens : List Token} (h : Reader.Free Kind.stays (kindsOf tokens)) :
    ∀ t ∈ tokens, t.kind ≠ .mark ";" := by
  intro t ht heq
  have hstays := h t.kind (List.mem_map_of_mem ht)
  rw [heq] at hstays
  cases hstays

lemma holdsImport_of_free {tokens : List Token} (h : Reader.Free Kind.stays (kindsOf tokens)) :
    holdsImport tokens = false := by
  rw [holdsImport, List.any_eq_false]
  intro t ht hkind
  have hstays := h t.kind (List.mem_map_of_mem ht)
  rw [of_decide_eq_true hkind] at hstays
  cases hstays

/-- The statement that makes up the interface, if it is one. -/
def Statement.interface? : Statement → Option InterfaceStatement
  | .interface i => some i
  | _ => none

namespace Statement.Shows

variable {piece : List Token} {s : Statement}

lemma not_semicolon (h : Shows piece s) : ∀ t ∈ piece, t.kind ≠ .mark ";" := by
  cases h with
  | imports form hkinds =>
    intro t ht
    have hfree := form.free_kinds t.kind (hkinds ▸ List.mem_map_of_mem ht)
    simp only [Kind.inImport, Bool.and_eq_true, decide_eq_true_eq] at hfree
    exact hfree.1
  | other hsettled => exact not_semicolon_of_free hsettled.free

lemma not_colon_of_form {form : ImportForm} (h : kindsOf piece = form.kinds) :
    ∀ t ∈ piece, t.kind ≠ .mark ":" := by
  intro t ht
  have hfree := form.free_kinds t.kind (h ▸ List.mem_map_of_mem ht)
  simp only [Kind.inImport, Bool.and_eq_true, decide_eq_true_eq] at hfree
  exact hfree.2

lemma imports_segmentsOf (h : Shows piece s) : Imports (segmentsOf [piece]) (importsOf false s) := by
  cases h with
  | imports form hkinds =>
    have hword : holdsImport piece = true := by
      obtain ⟨t, ht, hkind⟩ := List.mem_map.mp (hkinds ▸ form.import_mem_kinds)
      exact List.any_eq_true.mpr ⟨t, ht, by simpa using hkind⟩
    have hwhole : piece.rtakeWhile (·.kind ≠ .mark ":") = piece := by
      rw [List.rtakeWhile_eq_self_iff]
      simpa using not_colon_of_form hkinds
    have hsegments : segmentsOf [piece] = [piece] := by
      rw [segmentsOf, List.filter_cons_of_pos hword, List.filter_nil, List.map_singleton, hwhole]
    refine ⟨[⟨form, piece, hkinds⟩], hsegments.symm, ?_⟩
    simp only [List.filterMap_cons, List.filterMap_nil, WrittenImport.statement?, ofForm]
    cases form.request? <;> rfl
  | other hsettled =>
    have hsegments : segmentsOf [piece] = [] := by
      rw [segmentsOf, List.filter_cons_of_neg (by simp [holdsImport_of_free hsettled.free])]
      rfl
    have hfound : importsOf false (ofKinds (kindsOf piece)) = [] := by
      unfold ofKinds
      cases interfaceOf? (kindsOf piece) <;> rfl
    rw [hsegments, hfound]
    exact .nil

lemma interface?_eq (h : Shows piece s) : s.interface? = interfaceOf? (kindsOf piece) := by
  cases h with
  | imports form hkinds =>
    obtain ⟨word, rest, -, hform⟩ := form.exists_kinds_eq
    rw [hkinds, hform, ofForm]
    cases form.request? <;> rfl
  | other hsettled =>
    rw [ofKinds]
    cases interfaceOf? (kindsOf piece) <;> rfl

lemma commentsOf_eq_nil (h : Shows piece s) : commentsOf s = [] := by
  cases h with
  | imports form hkinds =>
    rw [ofForm]
    cases form.request? <;> rfl
  | other hsettled =>
    rw [ofKinds]
    cases interfaceOf? (kindsOf piece) <;> rfl

lemma not_colon_last (h : Shows piece s) : (kindsOf piece).getLast? ≠ some (.mark ":") := by
  cases h with
  | imports form hkinds =>
    intro hlast
    obtain ⟨t, ht, hkind⟩ := List.mem_map.mp (List.mem_of_getLast? hlast)
    exact not_colon_of_form hkinds t ht hkind
  | other hsettled => exact hsettled.last

end Statement.Shows

lemma pieces_eq_singleton {piece : List Token} (h : ∀ t ∈ piece, t.kind ≠ .mark ";") :
    pieces piece = [piece] :=
  List.splitOnP_eq_singleton fun t ht => decide_eq_false (h t ht)

lemma pieces_append {piece : List Token} (h : ∀ t ∈ piece, t.kind ≠ .mark ";") {t : Token}
    (ht : t.kind = .mark ";") (rest : List Token) :
    pieces (piece ++ t :: rest) = piece :: pieces rest :=
  List.splitOnP_append_cons_of_forall_mem (fun t ht => decide_eq_false (h t ht)) t
    (decide_eq_true ht) rest

lemma atEnd_eq (tokens : List Token) : Reader.atEnd tokens = .ok (tokens.isEmpty, tokens) := by
  cases tokens <;> rfl

open Reader in
/-- The simple statements of a line are those that its pieces show; a last piece may be empty. A line
of simple statements does not end in a colon. -/
theorem simplesWithin_shows {n : Nat} {tokens rest : List Token} {ss : List Statement}
    (h : simplesWithin n tokens = .ok (ss, rest)) :
    (∃ ps, List.Forall₂ Shows ps ss ∧ (pieces tokens = ps ∨ pieces tokens = ps ++ [[]])) ∧
      (kindsOf tokens).getLast? ≠ some (.mark ":") := by
  induction n generalizing tokens ss with
  | zero => cases h
  | succ n ih =>
    obtain ⟨s, behind, hsimple, h₁⟩ := bind_eq_ok_iff.mp h
    obtain ⟨piece, rfl, hpiece⟩ := simple_shows hsimple
    obtain ⟨semicolon, left, haccept, h₂⟩ := bind_eq_ok_iff.mp h₁
    obtain ⟨taken, rfl, htaken⟩ := takes_accept (.mark ";") behind _ _ List.nil_prefix haccept
    cases semicolon with
    | false =>
      obtain rfl : taken = [] := List.map_eq_nil_iff.mp htaken
      obtain ⟨ends, left', hend, h₃⟩ := bind_eq_ok_iff.mp h₂
      rw [atEnd_eq] at hend
      cases left with
      | nil =>
        cases hend
        cases h₃
        rw [List.append_nil, List.append_nil]
        exact ⟨⟨[piece], .cons hpiece .nil, Or.inl (pieces_eq_singleton hpiece.not_semicolon)⟩,
          hpiece.not_colon_last⟩
      | cons t left =>
        cases hend
        cases h₃
    | true =>
      obtain ⟨t, rfl, ht⟩ := List.map_eq_singleton_iff.mp htaken
      have hpieces := pieces_append hpiece.not_semicolon ht left
      have hsemicolon : (kindsOf (piece ++ [t])).getLast? ≠ some (.mark ":") := by
        simp [kindsOf, ht]
      rw [← List.append_assoc, kindsOf, List.map_append]
      obtain ⟨ends, left', hend, h₃⟩ := bind_eq_ok_iff.mp h₂
      rw [atEnd_eq] at hend
      cases left with
      | nil =>
        cases hend
        cases h₃
        refine ⟨⟨[piece], .cons hpiece .nil, Or.inr ?_⟩, getLast?_append_ne hsemicolon (by simp)⟩
        rw [List.append_nil]
        exact hpieces
      | cons u left =>
        cases hend
        obtain ⟨further, left'', hfurther, h₄⟩ := bind_eq_ok_iff.mp h₃
        cases h₄
        obtain ⟨⟨ps, hps, hleft⟩, hlast⟩ := ih hfurther
        refine ⟨⟨piece :: ps, .cons hpiece hps, ?_⟩, getLast?_append_ne hsemicolon hlast⟩
        rw [List.append_assoc, List.singleton_append, hpieces]
        exact hleft.imp (congrArg (piece :: ·)) (congrArg (piece :: ·))

lemma simples_shows {tokens rest : List Token} {ss : List Statement}
    (h : simples tokens = .ok (ss, rest)) :
    (∃ ps, List.Forall₂ Shows ps ss ∧ (pieces tokens = ps ∨ pieces tokens = ps ++ [[]])) ∧
      (kindsOf tokens).getLast? ≠ some (.mark ":") :=
  simplesWithin_shows (n := tokens.length) h

lemma imports_of_shows {ps : List (List Token)} {ss : List Statement}
    (h : List.Forall₂ Shows ps ss) : Imports (segmentsOf ps) (importsOfAll false ss) := by
  induction h with
  | nil => exact .nil
  | @cons piece s ps ss hs _ ih =>
    rw [← List.singleton_append, segmentsOf_append]
    exact hs.imports_segmentsOf.append ih

lemma imports_of_simples {tokens rest : List Token} {ss : List Statement}
    (h : simples tokens = .ok (ss, rest)) :
    Imports (importSegments tokens) (importsOfAll false ss) := by
  obtain ⟨⟨ps, hps, htokens⟩, -⟩ := simples_shows h
  have hsegments : importSegments tokens = segmentsOf ps := by
    rcases htokens with htokens | htokens
    · rw [importSegments, htokens]
    · rw [importSegments, htokens, segmentsOf_append]
      exact List.append_nil _
  rw [hsegments]
  exact imports_of_shows hps

lemma comments_of_simples {tokens rest : List Token} {ss : List Statement}
    (h : simples tokens = .ok (ss, rest)) : commentsOfAll ss = [] := by
  obtain ⟨⟨ps, hps, -⟩, -⟩ := simples_shows h
  clear h
  induction hps with
  | nil => rfl
  | cons hs _ ih => exact (congrArg₂ (· ++ ·) hs.commentsOf_eq_nil ih).trans (List.append_nil _)

lemma interfaces_of_simples {tokens rest : List Token} {ss : List Statement}
    (h : simples tokens = .ok (ss, rest)) :
    ss.filterMap interface? = (pieces tokens).filterMap fun piece => interfaceOf? (kindsOf piece) := by
  obtain ⟨⟨ps, hps, htokens⟩, -⟩ := simples_shows h
  have hpieces : (pieces tokens).filterMap (fun piece => interfaceOf? (kindsOf piece)) =
      ps.filterMap fun piece => interfaceOf? (kindsOf piece) := by
    rcases htokens with htokens | htokens
    · rw [htokens]
    · rw [htokens, List.filterMap_append]
      exact List.append_nil _
  rw [hpieces]
  clear hpieces htokens h
  induction hps with
  | nil => rfl
  | cons hs _ ih => rw [List.filterMap_cons, List.filterMap_cons, hs.interface?_eq, ih]

end ImportFence.Source
