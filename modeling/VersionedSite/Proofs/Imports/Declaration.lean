import Mathlib.Data.List.TakeWhile
import VersionedSite.Imports.Specifier
import VersionedSite.Proofs.Text.Scan

/-!
# Declarations as they are written

What is found of a declaration depends on the text around it, since a source is read without regard to its
syntax. A declaration is recognised as a whole and as nothing more, whatever stands behind it
(`Declaration.declaration?_text`). Its clause may hold any words and blanks, `type` and `from` included, so
that there are many ways to read it. But a clause holds no quotes: whichever way is taken, the specifier can
only be the one behind the first quote (`firstQuoted?_of_clauseDeclaration?`), and there is a way
(`Clause.isSome_clause?`).

* `declaration?_eq_none`: nothing is recognised where neither keyword stands.
-/

namespace VersionedSite.Imports

open Text

variable {c : Char} {s t : List Char} {found : List Char × List Char}

/-! ## The first quote -/

theorem isQuote_iff : isQuote c = true ↔ c = '\'' ∨ c = '"' := by
  simp [isQuote]

theorem isQuote_of_isClauseChar (h : isClauseChar c = true) : isQuote c = false := by
  refine Bool.eq_false_iff.2 fun hq => ?_
  rcases isQuote_iff.1 hq with rfl | rfl <;> exact absurd h (by decide)

theorem isClauseChar_of_isBlank (h : isBlank c = true) : isClauseChar c = true := by
  rw [isClauseChar, h, Bool.or_true]

theorem isQuote_of_isBlank (h : isBlank c = true) : isQuote c = false :=
  isQuote_of_isClauseChar (isClauseChar_of_isBlank h)

/-- Whether a text has no quotes. -/
def isUnquoted (s : List Char) : Bool := s.all fun c => !isQuote c

theorem isUnquoted_iff : isUnquoted s = true ↔ ∀ c ∈ s, isQuote c = false := by
  simp [isUnquoted]

/-- The specifier between the first quote of a text and the next one. -/
def firstQuoted? : Recogniser (List Char) := fun s => quotedSpecifier? (s.dropWhile fun c => !isQuote c)

theorem firstQuoted?_append (h : isUnquoted s = true) (t : List Char) :
    firstQuoted? (s ++ t) = firstQuoted? t := by
  rw [firstQuoted?, List.dropWhile_append_of_pos (List.all_eq_true.1 h), firstQuoted?]

theorem firstQuoted?_cons (h : isQuote c = false) (s : List Char) :
    firstQuoted? (c :: s) = firstQuoted? s :=
  firstQuoted?_append (s := [c]) (by simp [isUnquoted, h]) s

theorem firstQuoted?_of_quotedSpecifier? (h : quotedSpecifier? s = some found) :
    firstQuoted? s = some found := by
  cases s with
  | nil => cases h
  | cons c s =>
    rw [firstQuoted?, List.dropWhile_cons_of_neg, h]
    intro hc
    rw [quotedSpecifier?, if_neg (by simpa using hc)] at h
    cases h

theorem firstQuoted?_of_after? {lead : List Char} (hlead : isUnquoted lead = true)
    (h : after? lead s = some t) : firstQuoted? s = firstQuoted? t := by
  rw [eq_append_of_after? h, firstQuoted?_append hlead]

theorem firstQuoted?_of_afterBlanks? (h : afterBlanks? s = some t) : firstQuoted? s = firstQuoted? t := by
  cases s with
  | nil => cases h
  | cons c s =>
    rw [afterBlanks?, Option.ite_none_right_eq_some, Option.some_inj] at h
    obtain ⟨hc, rfl⟩ := h
    have hblanks : isUnquoted (s.takeWhile isBlank) = true :=
      isUnquoted_iff.2 fun d hd => isQuote_of_isBlank (List.mem_takeWhile_imp hd)
    have hrest := firstQuoted?_append hblanks (s.dropWhile isBlank)
    rw [List.takeWhile_append_dropWhile] at hrest
    rw [firstQuoted?_cons (isQuote_of_isBlank hc), hrest]

theorem firstQuoted?_of_mem_behindBlanks (h : t ∈ behindBlanks s) : firstQuoted? s = firstQuoted? t := by
  induction s with
  | nil => cases h
  | cons c s ih =>
    rw [behindBlanks] at h
    split at h
    · rename_i hc
      rw [firstQuoted?_cons (isQuote_of_isBlank hc)]
      rcases List.mem_append.1 h with h | h
      · exact ih h
      · rw [List.mem_singleton.1 h]
    · cases h

/-! ## Parts of a declaration -/

theorem firstQuoted?_of_fromSpecifier? (h : fromSpecifier? s = some found) :
    firstQuoted? s = some found := by
  obtain ⟨rest, hblanks, hquoted⟩ := Option.bind_eq_some_iff.1 h
  obtain ⟨behind, hfrom, hblanks⟩ := Option.bind_eq_some_iff.1 hblanks
  rw [firstQuoted?_of_after? (by decide) hfrom, firstQuoted?_of_afterBlanks? hblanks,
    firstQuoted?_of_quotedSpecifier? hquoted]

/-- A clause ends at the first blank with a `from` and a specifier behind it. -/
theorem clauseRest?_cons (c : Char) (s : List Char) :
    clauseRest? (c :: s) =
      if isClauseChar c then (if isBlank c then fromSpecifier? s else none).or (clauseRest? s) else none := by
  -- Not by the equations of the recursion, which take long to derive.
  change (if isClauseChar c then _ else none) = _
  cases (if isBlank c then fromSpecifier? s else none) <;> rfl

theorem firstQuoted?_of_clauseRest? (h : clauseRest? s = some found) : firstQuoted? s = some found := by
  induction s with
  | nil => cases h
  | cons c s ih =>
    rw [clauseRest?_cons, Option.ite_none_right_eq_some, Option.or_eq_some_iff,
      Option.ite_none_right_eq_some] at h
    rw [firstQuoted?_cons (isQuote_of_isClauseChar h.1)]
    rcases h.2 with ⟨-, hfrom⟩ | ⟨-, hrest⟩
    · exact firstQuoted?_of_fromSpecifier? hfrom
    · exact ih hrest

theorem firstQuoted?_of_clause? (h : clause? s = some found) : firstQuoted? s = some found := by
  cases s with
  | nil => cases h
  | cons c s =>
    rw [clause?, Option.ite_none_right_eq_some] at h
    rw [firstQuoted?_cons (isQuote_of_isClauseChar h.1), firstQuoted?_of_clauseRest? h.2]

theorem firstQuoted?_of_mem_clauseStarts (h : t ∈ clauseStarts s) : firstQuoted? s = firstQuoted? t := by
  unfold clauseStarts at h
  split at h
  · cases h
  · rename_i body fewer hblanks
    have hbody : firstQuoted? s = firstQuoted? body :=
      firstQuoted?_of_mem_behindBlanks (hblanks ▸ List.mem_cons_self)
    rcases List.mem_append.1 h with h | h
    · cases htype : after? "type".toList body with
      | none =>
        rw [htype] at h
        cases h
      | some rest =>
        rw [htype] at h
        rw [hbody, firstQuoted?_of_after? (by decide) htype, firstQuoted?_of_mem_behindBlanks h]
    · exact firstQuoted?_of_mem_behindBlanks (hblanks ▸ h)

/-- Whichever way a declaration with a clause is read, the specifier is the first one between quotes. -/
theorem firstQuoted?_of_clauseDeclaration? (h : clauseDeclaration? s = some found) :
    firstQuoted? s = some found := by
  obtain ⟨rest, hkeyword, hclause⟩ := Option.bind_eq_some_iff.1 h
  obtain ⟨start, hstart, hclause⟩ := List.exists_of_findSome?_eq_some hclause
  have hrest : firstQuoted? s = firstQuoted? rest := by
    rw [Option.orElse_eq_orElse, Option.orElse_eq_or, Option.or_eq_some_iff] at hkeyword
    rcases hkeyword with hkeyword | ⟨-, hkeyword⟩
    · exact firstQuoted?_of_after? (by decide) hkeyword
    · exact firstQuoted?_of_after? (by decide) hkeyword
  rw [hrest, firstQuoted?_of_mem_clauseStarts hstart, firstQuoted?_of_clause? hclause]

/-! ## What is written -/

/-- A specifier as it is written, between two quotes of either kind. -/
structure Quoted where
  opening : Char := '"'
  specifier : String
  closing : Char := '"'
  isQuote_opening : isQuote opening = true := by decide
  specifier_ne : specifier ≠ "" := by decide
  isUnquoted_specifier : isUnquoted specifier.toList = true := by decide
  isQuote_closing : isQuote closing = true := by decide

/-- What is declared between a keyword and its `from`; `type` in front of a clause is a part of it. -/
structure Clause where
  text : String
  text_ne : text ≠ "" := by decide
  all_isClauseChar : text.toList.all isClauseChar = true := by decide

/-- Whether names come into a module or go out of it. -/
inductive Direction where
  | inward
  | outward

/-- A declaration, up to the end of what names a module. -/
inductive Declaration where
  /-- `import … from "x"` or `export … from "x"`. -/
  | names (direction : Direction) (clause : Clause) (q : Quoted)
  /-- `import "x"`. -/
  | effects (q : Quoted)
  /-- `import("x")`. -/
  | call (q : Quoted)

def Quoted.text (q : Quoted) : String := String.singleton q.opening ++ q.specifier ++ String.singleton q.closing

def Direction.keyword : Direction → String
  | inward => "import"
  | outward => "export"

namespace Declaration

def text : Declaration → String
  | names direction clause q => direction.keyword ++ " " ++ clause.text ++ " from " ++ q.text
  | effects q => "import " ++ q.text
  | call q => "import(" ++ q.text ++ ")"

def specifier : Declaration → String
  | names _ _ q | effects q | call q => q.specifier

end Declaration

/-! ## What is written is recognised -/

namespace Quoted

variable (q : Quoted) (t : List Char)

theorem toList_text : q.text.toList = q.opening :: (q.specifier.toList ++ [q.closing]) := by
  simp [text]

theorem isBlank_opening : isBlank q.opening = false := by
  refine Bool.eq_false_iff.2 fun hblank => ?_
  cases q.isQuote_opening.symm.trans (isQuote_of_isBlank hblank)

theorem quotedSpecifier?_text : quotedSpecifier? (q.text.toList ++ t) = some (q.specifier.toList, t) := by
  have hspan : (q.specifier.toList ++ q.closing :: t).span (fun c => !isQuote c) =
      (q.specifier.toList, q.closing :: t) := by
    have hbody : ∀ c ∈ q.specifier.toList, (!isQuote c) = true := List.all_eq_true.1 q.isUnquoted_specifier
    have hend : ¬(!isQuote q.closing) = true := by simp [q.isQuote_closing]
    rw [List.span_eq_takeWhile_dropWhile, List.takeWhile_append_of_pos hbody,
      List.dropWhile_append_of_pos hbody, List.takeWhile_cons_of_neg (p := fun c => !isQuote c) hend,
      List.dropWhile_cons_of_neg (p := fun c => !isQuote c) hend, List.append_nil]
  obtain ⟨c, more, hmore⟩ := List.exists_cons_of_ne_nil (mt String.toList_eq_nil_iff.1 q.specifier_ne)
  rw [toList_text, List.cons_append, List.append_assoc, List.singleton_append, quotedSpecifier?,
    if_pos q.isQuote_opening, hspan, hmore]

theorem firstQuoted?_text : firstQuoted? (q.text.toList ++ t) = some (q.specifier.toList, t) :=
  firstQuoted?_of_quotedSpecifier? (q.quotedSpecifier?_text t)

/-- One blank in front of a specifier is taken off. -/
theorem quotedSpecifier?_behind_blank :
    (afterBlanks? (' ' :: (q.text.toList ++ t))).bind quotedSpecifier? = some (q.specifier.toList, t) := by
  have hblank : isBlank ' ' = true := by decide
  have hrest : (q.text.toList ++ t).dropWhile isBlank = q.text.toList ++ t := by
    rw [toList_text, List.cons_append, List.dropWhile_cons_of_neg (by simp [q.isBlank_opening])]
  rw [afterBlanks?, if_pos hblank, hrest, Option.bind_some, quotedSpecifier?_text]

theorem fromSpecifier?_text :
    fromSpecifier? ("from".toList ++ ' ' :: (q.text.toList ++ t)) = some (q.specifier.toList, t) := by
  rw [fromSpecifier?, after?_append, Option.bind_some, quotedSpecifier?_behind_blank]

end Quoted

/-- A clause comes to an end in front of a `from`, at the latest. -/
theorem isSome_clauseRest? (hs : ∀ c ∈ s, isClauseChar c = true) (hc : isBlank c = true)
    (ht : (fromSpecifier? t).isSome = true) : (clauseRest? (s ++ c :: t)).isSome = true := by
  induction s with
  | nil =>
    rw [List.nil_append, clauseRest?_cons, if_pos (isClauseChar_of_isBlank hc), if_pos hc, Option.isSome_or,
      ht, Bool.true_or]
  | cons d s ih =>
    rw [List.forall_mem_cons] at hs
    rw [List.cons_append, clauseRest?_cons, if_pos hs.1, Option.isSome_or, ih hs.2, Bool.or_true]

theorem Clause.isSome_clause? (clause : Clause) (q : Quoted) (t : List Char) :
    (clause? (clause.text.toList ++ ' ' :: ("from".toList ++ ' ' :: (q.text.toList ++ t)))).isSome = true := by
  obtain ⟨c, more, hmore⟩ := List.exists_cons_of_ne_nil (mt String.toList_eq_nil_iff.1 clause.text_ne)
  have hchars := List.all_eq_true.1 clause.all_isClauseChar
  rw [hmore, List.forall_mem_cons] at hchars
  rw [hmore, List.cons_append, clause?, if_pos hchars.1]
  exact isSome_clauseRest? hchars.2 (by decide) (by rw [q.fromSpecifier?_text]; rfl)

/-- Behind one blank a clause may begin. -/
theorem mem_clauseStarts (s : List Char) : s ∈ clauseStarts (' ' :: s) := by
  have hblank : isBlank ' ' = true := by decide
  have hmem : s ∈ behindBlanks (' ' :: s) := by
    rw [behindBlanks, if_pos hblank]
    exact List.mem_append_right _ (List.mem_singleton_self s)
  rw [clauseStarts]
  split
  · rename_i hnil
    rw [hnil] at hmem
    cases hmem
  · rename_i body fewer hblanks
    exact List.mem_append_right _ (hblanks ▸ hmem)

theorem Direction.after?_keyword (d : Direction) (s : List Char) :
    (after? "import".toList (d.keyword.toList ++ s) <|> after? "export".toList (d.keyword.toList ++ s)) =
      some s := by
  cases d with
  | inward => rw [keyword, after?_append]; rfl
  | outward =>
    have hnone : after? "import".toList ("export".toList ++ s) = none := by simp [after?]
    rw [keyword, hnone, after?_append]
    rfl

theorem Direction.isUnquoted_keyword (d : Direction) : isUnquoted d.keyword.toList = true := by
  cases d <;> decide

theorem Clause.isUnquoted_text (clause : Clause) : isUnquoted clause.text.toList = true :=
  isUnquoted_iff.2 fun c hc => isQuote_of_isClauseChar (List.all_eq_true.1 clause.all_isClauseChar c hc)

theorem clauseDeclaration?_text (d : Direction) (clause : Clause) (q : Quoted) (t : List Char) :
    clauseDeclaration? ((Declaration.names d clause q).text.toList ++ t) = some (q.specifier.toList, t) := by
  have hsplit : (Declaration.names d clause q).text.toList ++ t = d.keyword.toList ++
      ' ' :: (clause.text.toList ++ ' ' :: ("from".toList ++ ' ' :: (q.text.toList ++ t))) := by
    simp [Declaration.text]
  have hspace : isQuote ' ' = false := by decide
  have hfrom : isUnquoted "from".toList = true := by decide
  rw [hsplit]
  generalize hsource : d.keyword.toList ++
    ' ' :: (clause.text.toList ++ ' ' :: ("from".toList ++ ' ' :: (q.text.toList ++ t))) = source
  have hfirst : firstQuoted? source = some (q.specifier.toList, t) := by
    rw [← hsource, firstQuoted?_append d.isUnquoted_keyword, firstQuoted?_cons hspace,
      firstQuoted?_append clause.isUnquoted_text, firstQuoted?_cons hspace, firstQuoted?_append hfrom,
      firstQuoted?_cons hspace, q.firstQuoted?_text]
  have hsome : (clauseDeclaration? source).isSome = true := by
    rw [← hsource, clauseDeclaration?, d.after?_keyword, Option.bind_some, List.findSome?_isSome_iff]
    exact ⟨_, mem_clauseStarts _, clause.isSome_clause? q t⟩
  obtain ⟨found, hfound⟩ := Option.isSome_iff_exists.1 hsome
  rw [hfound, ← firstQuoted?_of_clauseDeclaration? hfound, hfirst]

/-- A declaration is recognised from its beginning to its end, whatever stands behind it. -/
theorem Declaration.declaration?_text (d : Declaration) (t : List Char) :
    declaration? (d.text.toList ++ t) = some (d.specifier.toList, t) := by
  cases d with
  | names direction clause q =>
    rw [declaration?, clauseDeclaration?_text]
    rfl
  | effects q =>
    have hsplit : (effects q).text.toList ++ t = "import".toList ++ ' ' :: (q.text.toList ++ t) := by
      simp [text]
    have himport : isUnquoted "import".toList = true := by decide
    have hspace : isQuote ' ' = false := by decide
    rw [hsplit]
    generalize hsource : "import".toList ++ ' ' :: (q.text.toList ++ t) = source
    have hbare : bareImport? source = some (q.specifier.toList, t) := by
      rw [← hsource, bareImport?, after?_append, Option.bind_some, q.quotedSpecifier?_behind_blank]
    cases hclause : clauseDeclaration? source with
    | none =>
      rw [declaration?, hclause, hbare]
      rfl
    | some found =>
      -- Were it read with a clause, the specifier would be the same.
      have hfirst : firstQuoted? source = some (q.specifier.toList, t) := by
        rw [← hsource, firstQuoted?_append himport, firstQuoted?_cons hspace, q.firstQuoted?_text]
      rw [firstQuoted?_of_clauseDeclaration? hclause] at hfirst
      rw [declaration?, hclause, hfirst]
      rfl
  | call q =>
    have hsplit : (call q).text.toList ++ t = "import(".toList ++ (q.text.toList ++ ')' :: t) := by
      simp [text]
    have hcall : "import(".toList ++ (q.text.toList ++ ')' :: t) =
        Direction.inward.keyword.toList ++ '(' :: (q.text.toList ++ ')' :: t) := rfl
    have hclause : clauseDeclaration? ((call q).text.toList ++ t) = none := by
      rw [hsplit, hcall, clauseDeclaration?, Direction.after?_keyword]
      rfl
    have hbare : bareImport? ((call q).text.toList ++ t) = none := by
      rw [hsplit, hcall, bareImport?, Direction.keyword, after?_append]
      rfl
    have hopening : trimStart (q.text.toList ++ ')' :: t) = q.text.toList ++ ')' :: t := by
      rw [q.toList_text, List.cons_append, trimStart_of_not_isBlank q.isBlank_opening]
    have hclosing : trimStart (')' :: t) = ')' :: t := trimStart_of_not_isBlank (by decide)
    have hend : after? [')'] (')' :: t) = some t := after?_append [')'] t
    rw [declaration?, hclause, hbare, hsplit, importCall?, after?_append, Option.bind_some, hopening,
      q.quotedSpecifier?_text, Option.bind_some]
    dsimp only
    rw [hclosing, hend]
    rfl

theorem declaration?_eq_none (himport : after? "import".toList s = none)
    (hexport : after? "export".toList s = none) : declaration? s = none := by
  have hcall : after? "import(".toList s = none := by
    rw [after?_eq_none_iff] at himport ⊢
    exact fun h => himport ((by decide : "import".toList <+: "import(".toList).trans h)
  rw [declaration?, clauseDeclaration?, bareImport?, importCall?, himport, hexport, hcall]
  rfl

end VersionedSite.Imports
