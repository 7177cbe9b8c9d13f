import ImportFence.Config.Writer
import ImportFence.Config.Reader
import ImportFence.Proofs.QuotedText

/-!
# Written documents are read back

Reading what the writer puts out, piece by piece: filler between pieces, quoted texts, arrays of
texts, truth values, and lines with a key and a value. A text denotes statements if reading it yields
them and goes on with what follows; this composes, so that a document is read line by line.
-/

namespace ImportFence.Toml

/-! ### Filler -/

/-- The text begins with a character of a value, a key or a bracket. -/
def Solid (cs : List Char) : Prop :=
  ∃ c rest, cs = c :: rest ∧ c ∉ [' ', '\t', '#', '\n', '\r']

lemma Solid.append {cs : List Char} (h : Solid cs) (rest : List Char) : Solid (cs ++ rest) := by
  obtain ⟨c, tail, rfl, hc⟩ := h
  exact ⟨c, tail ++ rest, rfl, hc⟩

lemma Solid.skipBlanks {cs : List Char} (h : Solid cs) : skipBlanks cs = cs := by
  obtain ⟨c, rest, rfl, hc⟩ := h
  have hblank : isBlank c = false := by simp_all [isBlank]
  exact List.dropWhile_cons_of_neg (by simp [hblank])

lemma Solid.skipRemark {cs : List Char} (h : Solid cs) : skipRemark cs = cs := by
  rw [Toml.skipRemark, h.skipBlanks]
  obtain ⟨c, rest, rfl, hc⟩ := h
  split
  · simp_all
  · rfl

lemma Solid.afterLineBreak? {cs : List Char} (h : Solid cs) : afterLineBreak? cs = none := by
  obtain ⟨c, rest, rfl, hc⟩ := h
  rw [Toml.afterLineBreak?] <;> simp_all

lemma Solid.afterLine? {cs : List Char} (h : Solid cs) : afterLine? cs = none := by
  rw [Toml.afterLine?, h.skipRemark]
  have hnone := h.afterLineBreak?
  obtain ⟨c, rest, rfl, hc⟩ := h
  exact hnone

lemma Solid.skipLines {cs : List Char} (h : Solid cs) (n : Nat) : skipLines n cs = cs := by
  cases n with
  | zero => rfl
  | succ n => rw [Toml.skipLines, h.skipRemark, h.afterLineBreak?]

lemma Solid.skipFiller {cs : List Char} (h : Solid cs) : skipFiller cs = cs :=
  h.skipLines _

lemma Solid.skipFiller_line {cs : List Char} (h : Solid cs) (indent : Nat) :
    Toml.skipFiller ('\n' :: (List.replicate indent ' ' ++ cs)) = cs := by
  have hblanks : Toml.skipBlanks (List.replicate indent ' ' ++ cs) = cs := by
    rw [Toml.skipBlanks, List.dropWhile_append_of_pos (by simp [isBlank])]
    exact h.skipBlanks
  have hremark : Toml.skipRemark (List.replicate indent ' ' ++ cs) = cs := by
    have hcs := h.skipRemark
    rw [Toml.skipRemark, h.skipBlanks] at hcs
    rw [Toml.skipRemark, hblanks, hcs]
  change Toml.skipLines _ (List.replicate indent ' ' ++ cs) = cs
  cases hlen : (List.replicate indent ' ' ++ cs).length with
  | zero =>
    obtain ⟨c, rest, rfl, -⟩ := h
    simp at hlen
  | succ n => rw [Toml.skipLines, hremark, h.afterLineBreak?]

/-! ### Values -/

lemma solid_write (s : List Char) : Solid (Quoted.write s) := by
  rw [Quoted.write]
  cases Quoted.formOf s <;> exact ⟨_, _, rfl, by decide⟩

lemma readValueWithin_text (n : Nat) (s : String) {rest : List Char}
    (hdouble : Quoted.EndsRun '"' rest) (hsingle : Quoted.EndsRun '\'' rest) :
    readValueWithin (n + 1) (Quoted.write s.toList ++ rest) = some (.text s, rest) := by
  have hread := Quoted.read_write s.toList hdouble hsingle
  obtain ⟨tail, htail | htail⟩ : ∃ tail, Quoted.write s.toList ++ rest = '"' :: tail ∨
      Quoted.write s.toList ++ rest = '\'' :: tail := by
    rw [Quoted.write]
    cases Quoted.formOf s.toList <;> simp [Quoted.writeIn]
  · rw [htail] at hread ⊢
    simp [readValueWithin, hread]
  · rw [htail] at hread ⊢
    simp [readValueWithin, hread]

section Items

variable {item : List Char → Option (Value × List Char)} {cs text rest rest' : List Char}
  {v : Value}

lemma readItems_close (n : Nat) (hcs : skipFiller cs = ']' :: rest) :
    readItems item (n + 1) cs = some ([], rest) := by
  simp only [readItems, hcs]

lemma readItems_next (n : Nat) (hcs : skipFiller cs = text) (hopen : text.head? ≠ some ']')
    (hitem : item text = some (v, rest)) (hrest : skipFiller rest = ',' :: rest') :
    readItems item (n + 1) cs = (readItems item n rest').map fun r => (v :: r.1, r.2) := by
  rw [readItems, hcs]
  split
  · simp at hopen
  · simp only [hitem, hrest, Option.bind_eq_bind, Option.bind_some]
    cases readItems item n rest' <;> rfl

lemma readItems_last (n : Nat) (hcs : skipFiller cs = text) (hopen : text.head? ≠ some ']')
    (hitem : item text = some (v, rest)) (hrest : skipFiller rest = ']' :: rest') :
    readItems item (n + 1) cs = some ([v], rest') := by
  rw [readItems, hcs]
  split
  · simp at hopen
  · simp only [hitem, hrest, Option.bind_eq_bind, Option.bind_some]
    rfl

end Items

/-- The items of an array behind a line break each, then the closing bracket. -/
def itemLines : List String → List Char
  | [] => ['\n', ']']
  | s :: items => '\n' :: (List.replicate 4 ' ' ++ (Quoted.write s.toList ++ ',' :: itemLines items))

lemma itemLines_cons (s : String) (items : List String) :
    itemLines (s :: items) =
      '\n' :: (List.replicate 4 ' ' ++ (Quoted.write s.toList ++ ',' :: itemLines items)) := rfl

lemma head?_write (s rest : List Char) : (Quoted.write s ++ rest).head? ≠ some ']' := by
  rw [Quoted.write]
  cases Quoted.formOf s <;> simp [Quoted.writeIn]

lemma readItems_itemLines (n : Nat) {items : List String} {fuel : Nat}
    (hfuel : items.length < fuel) (rest : List Char) :
    readItems (readValueWithin (n + 1)) fuel (itemLines items ++ rest) =
      some (items.map .text, rest) := by
  induction items generalizing fuel with
  | nil =>
    obtain ⟨fuel, rfl⟩ := Nat.exists_eq_succ_of_ne_zero (Nat.ne_zero_of_lt hfuel)
    have hclose : Solid (']' :: rest) := ⟨']', rest, rfl, by decide⟩
    exact readItems_close fuel (hclose.skipFiller_line 0)
  | cons s items ih =>
    obtain ⟨fuel, rfl⟩ := Nat.exists_eq_succ_of_ne_zero (Nat.ne_zero_of_lt hfuel)
    have hcomma : Solid (',' :: (itemLines items ++ rest)) := ⟨',', _, rfl, by decide⟩
    have htext : itemLines (s :: items) ++ rest = '\n' :: (List.replicate 4 ' ' ++
        (Quoted.write s.toList ++ ',' :: (itemLines items ++ rest))) := by
      simp [itemLines_cons]
    have hskip := ((solid_write s.toList).append (',' :: (itemLines items ++ rest))).skipFiller_line 4
    have hitem : readValueWithin (n + 1) (Quoted.write s.toList ++ ',' :: (itemLines items ++ rest)) =
        some (.text s, ',' :: (itemLines items ++ rest)) :=
      readValueWithin_text n s (by simp [Quoted.EndsRun]) (by simp [Quoted.EndsRun])
    rw [htext, readItems_next fuel hskip (head?_write _ _) hitem hcomma.skipFiller,
      ih (Nat.lt_of_succ_lt_succ hfuel)]
    rfl

lemma writeTexts_eq (items : List String) (h : 1 < items.length) :
    writeTexts items = '[' :: itemLines items := by
  have hlines : ∀ items : List String, '\n' :: (items.flatMap (fun s =>
      "    ".toList ++ Quoted.write s.toList ++ ",\n".toList) ++ [']']) = itemLines items := by
    intro items
    induction items with
    | nil => rfl
    | cons s items ih =>
      rw [itemLines_cons, ← ih]
      simp
  rw [← hlines]
  match items, h with
  | s :: s' :: items, _ => rfl

lemma length_lt_itemLines (items : List String) : items.length < (itemLines items).length := by
  induction items with
  | nil => exact Nat.zero_lt_succ _
  | cons s items ih =>
    simp only [itemLines_cons, List.length_cons, List.length_append]
    omega

lemma readValue_array (text : List Char) :
    readValue ('[' :: text) =
      (readItems (readValueWithin (text.length + 1)) text.length text).map fun (vs, r) => (.array vs, r) :=
  rfl

lemma readValue_writeTexts (items : List String) (rest : List Char) :
    readValue (writeTexts items ++ rest) = some (.array (items.map .text), rest) := by
  have hclose : Solid (']' :: rest) := ⟨']', rest, rfl, by decide⟩
  match items with
  | [] =>
    change readValue ('[' :: ']' :: rest) = _
    rw [readValue_array, List.length_cons, readItems_close _ hclose.skipFiller]
    rfl
  | [s] =>
    have hskip := ((solid_write s.toList).append (']' :: rest)).skipFiller
    have hitem : readValueWithin ((Quoted.write s.toList ++ ']' :: rest).length + 1)
        (Quoted.write s.toList ++ ']' :: rest) = some (.text s, ']' :: rest) :=
      readValueWithin_text _ s (by simp [Quoted.EndsRun]) (by simp [Quoted.EndsRun])
    change readValue ('[' :: (Quoted.write s.toList ++ [']'] ++ rest)) = _
    rw [List.append_assoc, List.singleton_append, readValue_array]
    rw [List.length_append, List.length_cons, ← Nat.add_assoc] at hitem ⊢
    rw [readItems_last _ hskip (head?_write _ _) hitem hclose.skipFiller]
    rfl
  | s :: s' :: items =>
    have hfuel := length_lt_itemLines (s :: s' :: items)
    rw [writeTexts_eq _ (by simp), List.cons_append, readValue_array, readItems_itemLines]
    · rfl
    · rw [List.length_append]
      omega

lemma readValue_writeBoolean (b : Bool) (rest : List Char) :
    readValue (writeBoolean b ++ '\n' :: rest) = some (.boolean b, '\n' :: rest) := by
  cases b <;> rfl

lemma readValue_write (s : String) (rest : List Char) :
    readValue (Quoted.write s.toList ++ '\n' :: rest) = some (.text s, '\n' :: rest) :=
  readValueWithin_text _ s (by simp [Quoted.EndsRun]) (by simp [Quoted.EndsRun])

/-! ### Statements -/

/-- A text reads as a value at the end of a line. -/
structure IsValue (text : List Char) (v : Value) : Prop where
  solid : Solid text
  read : ∀ rest, readValue (text ++ '\n' :: rest) = some (v, '\n' :: rest)

/-- A key that needs no quotes. -/
def IsPlainKey (key : String) : Prop :=
  key ≠ "" ∧ ∀ c ∈ key.toList, isKeyChar c = true

instance (key : String) : Decidable (IsPlainKey key) :=
  @instDecidableAnd _ _ inferInstance (List.decidableBAll _ _)

lemma isKeyChar_ne {c x : Char} (h : isKeyChar c = true) (hx : isKeyChar x = false) : c ≠ x := by
  rintro rfl
  rw [h] at hx
  cases hx

lemma IsPlainKey.exists_cons {key : String} (h : IsPlainKey key) :
    ∃ c cs, key.toList = c :: cs ∧ isKeyChar c = true := by
  obtain ⟨hne, hchars⟩ := h
  cases hkey : key.toList with
  | nil => exact absurd (String.toList_eq_nil_iff.mp hkey) hne
  | cons c cs => exact ⟨c, cs, rfl, hchars c (hkey ▸ List.mem_cons_self)⟩

lemma IsPlainKey.solid {key : String} (h : IsPlainKey key) : Solid key.toList := by
  obtain ⟨c, cs, hkey, hc⟩ := h.exists_cons
  refine ⟨c, cs, hkey, ?_⟩
  intro hmem
  simp only [List.mem_cons, List.not_mem_nil, or_false] at hmem
  rcases hmem with rfl | rfl | rfl | rfl | rfl <;> simp [isKeyChar] at hc

lemma readKey_key {key : String} (hkey : IsPlainKey key) {c : Char} {rest : List Char}
    (hend : isKeyChar c = false) : readKey (key.toList ++ c :: rest) = some (key, c :: rest) := by
  have htake : (key.toList ++ c :: rest).takeWhile isKeyChar = key.toList := by
    rw [List.takeWhile_append_of_pos hkey.2, List.takeWhile_cons_of_neg (by simp [hend]),
      List.append_nil]
  have hdrop : (key.toList ++ c :: rest).dropWhile isKeyChar = c :: rest := by
    rw [List.dropWhile_append_of_pos hkey.2, List.dropWhile_cons_of_neg (by simp [hend])]
  obtain ⟨k, ks, hks, hk⟩ := hkey.exists_cons
  have hdouble : k ≠ '"' := isKeyChar_ne hk (by decide)
  have hsingle : k ≠ '\'' := isKeyChar_ne hk (by decide)
  rw [readKey]
  · rw [htake, hdrop, hks]
    simp [← hks]
  · simp [hks, hdouble]
  · simp [hks, hsingle]

lemma readPath_key {key : String} (hkey : IsPlainKey key) {c : Char} {rest : List Char}
    (hend : isKeyChar c = false) (hdot : (skipBlanks (c :: rest)).head? ≠ some '.') :
    readPath (key.toList ++ c :: rest) = some (([], key), skipBlanks (c :: rest)) := by
  rw [readPath, readKeys, (hkey.solid.append _).skipBlanks, readKey_key hkey hend]
  simp only [Option.bind_eq_bind, Option.bind_some]
  split
  · simp_all
  · rfl

lemma readStatement_writePair {key : String} (hkey : IsPlainKey key) {text : List Char} {v : Value}
    (hvalue : IsValue text v) (rest : List Char) :
    readStatement (writePair key text ++ rest) = some (.pair [] key v, rest) := by
  have htext : writePair key text ++ rest =
      key.toList ++ ' ' :: '=' :: ' ' :: (text ++ '\n' :: rest) := by
    simp [writePair]
  have hpath : readPath (key.toList ++ ' ' :: '=' :: ' ' :: (text ++ '\n' :: rest)) =
      some (([], key), '=' :: ' ' :: (text ++ '\n' :: rest)) :=
    readPath_key hkey (by decide) (by simp [skipBlanks, isBlank])
  have hskip : skipBlanks (' ' :: (text ++ '\n' :: rest)) = text ++ '\n' :: rest :=
    (hvalue.solid.append _).skipBlanks
  have hpair : readPair readValue (key.toList ++ ' ' :: '=' :: ' ' :: (text ++ '\n' :: rest)) =
      some (([], key, v), '\n' :: rest) := by
    rw [readPair, hpath]
    simp only [Option.bind_eq_bind, Option.bind_some, hskip, hvalue.read]
    rfl
  obtain ⟨k, ks, hks, hk⟩ := hkey.exists_cons
  have hbracket : k ≠ '[' := isKeyChar_ne hk (by decide)
  rw [htext, readStatement]
  · rw [hpair]
    rfl
  · simp [hks, hbracket]
  · simp [hks, hbracket]

lemma readStatement_listHeader {key : String} (hkey : IsPlainKey key) (rest : List Char) :
    readStatement ('[' :: '[' :: (key.toList ++ ']' :: ']' :: '\n' :: rest)) =
      some (.listHeader [] key, rest) := by
  have hpath : readPath (key.toList ++ ']' :: ']' :: '\n' :: rest) =
      some (([], key), ']' :: ']' :: '\n' :: rest) :=
    readPath_key hkey (by decide) (by simp [skipBlanks, isBlank])
  rw [readStatement, hpath]
  rfl

/-- Reading a text yields statements, and goes on with what follows. -/
def Denotes (text : List Char) (statements : List Statement) : Prop :=
  ∀ whole rest fuel, (text ++ rest).length < fuel → ∃ fuel', rest.length < fuel' ∧
    readStatements whole fuel (text ++ rest) =
      (readStatements whole fuel' rest).map (statements ++ ·)

lemma Denotes.nil : Denotes [] [] := by
  intro whole rest fuel hfuel
  refine ⟨fuel, hfuel, ?_⟩
  rw [List.nil_append]
  cases readStatements whole fuel rest <;> rfl

lemma Denotes.append {text text' : List Char} {statements statements' : List Statement}
    (h : Denotes text statements) (h' : Denotes text' statements') :
    Denotes (text ++ text') (statements ++ statements') := by
  intro whole rest fuel hfuel
  rw [List.append_assoc] at hfuel ⊢
  obtain ⟨fuel', hfuel', hread⟩ := h whole (text' ++ rest) fuel hfuel
  obtain ⟨fuel'', hfuel'', hread'⟩ := h' whole rest fuel' hfuel'
  refine ⟨fuel'', hfuel'', ?_⟩
  rw [hread, hread']
  cases readStatements whole fuel'' rest with
  | error e => rfl
  | ok found => simp [Except.map]

lemma Denotes.flatMap {α : Type} {text : α → List Char} {statements : α → List Statement}
    {xs : List α} (h : ∀ x ∈ xs, Denotes (text x) (statements x)) :
    Denotes (xs.flatMap text) (xs.flatMap statements) := by
  induction xs with
  | nil => exact Denotes.nil
  | cons x xs ih =>
    obtain ⟨hx, hxs⟩ := List.forall_mem_cons.mp h
    exact hx.append (ih hxs)

lemma readStatements_nil (whole : List Char) (fuel : Nat) : readStatements whole fuel [] = .ok [] := by
  cases fuel <;> rfl

lemma denotes_blank : Denotes ['\n'] [] := by
  intro whole rest fuel hfuel
  obtain ⟨fuel, rfl⟩ := Nat.exists_eq_succ_of_ne_zero (Nat.ne_zero_of_lt hfuel)
  have hline : afterLine? ('\n' :: rest) = some rest := rfl
  refine ⟨fuel, Nat.lt_of_succ_lt_succ hfuel, ?_⟩
  rw [List.singleton_append, readStatements, hline]
  cases rest with
  | nil => rw [readStatements_nil]; rfl
  | cons c rest => cases h : readStatements whole fuel (c :: rest) <;> simp [h, Except.map]

/-- A text that one statement is read from, whatever follows. -/
lemma denotes_of_readStatement {text : List Char} {statement : Statement} (hsolid : Solid text)
    (h : ∀ rest, readStatement (text ++ rest) = some (statement, rest)) :
    Denotes text [statement] := by
  intro whole rest fuel hfuel
  obtain ⟨fuel, rfl⟩ := Nat.exists_eq_succ_of_ne_zero (Nat.ne_zero_of_lt hfuel)
  refine ⟨fuel, ?_, ?_⟩
  · obtain ⟨c, tail, rfl, -⟩ := hsolid
    simp only [List.cons_append, List.length_cons, List.length_append] at hfuel
    omega
  · rw [readStatements, (hsolid.append rest).afterLine?]
    simp only [(hsolid.append rest).skipBlanks, h]
    cases readStatements whole fuel rest <;> rfl

lemma Denotes.readStatements {text : List Char} {statements : List Statement}
    (h : Denotes text statements) (whole : List Char) :
    readStatements whole (text.length + 1) text = .ok statements := by
  obtain ⟨fuel, -, hread⟩ := h whole [] (text.length + 1) (by simp)
  rw [List.append_nil, readStatements_nil] at hread
  simpa [Except.map] using hread

end ImportFence.Toml
