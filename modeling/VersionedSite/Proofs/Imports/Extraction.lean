import VersionedSite.Proofs.Distinct
import VersionedSite.Proofs.Imports.Declaration

/-!
# Which specifiers are found in a source

A source is a row of lines (`SourceLine`). Where each of them declares one thing at most, and neither keyword
stands in a line but at the beginning of what it declares, the specifiers that are taken from the source are
those of the project's own that were declared, in order and each once (`extract_source`). No declaration
swallows a part of the next line or hides it.

* `Silent.findings_append`: nothing is found in a text without a keyword, if what stands behind it does not
  complete one.
* `SourceLine.findings_text`: so a line is read by itself.
-/

namespace VersionedSite.Imports

open Text

variable {t : List Char}

/-! ## Lines -/

/-- A text in which neither keyword stands. It may hold line feeds, and so may a clause or a specifier. -/
structure Silent where
  text : String
  not_import : ¬"import".toList <:+: text.toList := by decide
  not_export : ¬"export".toList <:+: text.toList := by decide

/-- A line of a source with one declaration at most. -/
inductive SourceLine where
  | plain (text : Silent)
  /-- A declaration that ends in a semicolon has it behind it. -/
  | declaring (before : Silent) (d : Declaration) (behind : Silent)

namespace SourceLine

def text : SourceLine → String
  | plain text => text.text
  | declaring before d behind => before.text ++ d.text ++ behind.text

def specifier? : SourceLine → Option String
  | plain _ => none
  | declaring _ d _ => some d.specifier

end SourceLine

/-! ## Where nothing is declared -/

/-- Whether a text begins with nothing that a keyword in front of it could go on with. -/
def Apart (t : List Char) : Prop :=
  ∀ c, t.head? = some c → c ∉ "import".toList.tail ∧ c ∉ "export".toList.tail

/-- Nothing is found in a silent text. -/
theorem Silent.findings_append (x : Silent) (ht : Apart t) :
    findings declaration? (x.text.toList ++ t) = findings declaration? t := by
  refine findings_append_of_none fun v hv hne => ?_
  obtain ⟨c, v, rfl⟩ := List.exists_cons_of_ne_nil hne
  have himport : after? "import".toList (c :: v) = none :=
    after?_eq_none_iff.2 fun h => x.not_import (h.isInfix.trans hv.isInfix)
  have hexport : after? "export".toList (c :: v) = none :=
    after?_eq_none_iff.2 fun h => x.not_export (h.isInfix.trans hv.isInfix)
  exact declaration?_eq_none (after?_cons_append_eq_none himport fun d hd => (ht d hd).1)
    (after?_cons_append_eq_none hexport fun d hd => (ht d hd).2)

theorem apart_nil : Apart [] := nofun

theorem apart_newline (t : List Char) : Apart ('\n' :: t) := by
  rintro _ ⟨⟩
  decide

/-- A declaration begins with a keyword. -/
theorem Declaration.head?_text (d : Declaration) :
    d.text.toList.head? = some 'i' ∨ d.text.toList.head? = some 'e' := by
  cases d with
  | names direction _ _ =>
    cases direction with
    | inward => exact .inl (by simp [text, Direction.keyword])
    | outward => exact .inr (by simp [text, Direction.keyword])
  | effects => exact .inl (by simp [text])
  | call => exact .inl (by simp [text])

theorem Declaration.toList_text_ne (d : Declaration) : d.text.toList ≠ [] := by
  intro hnil
  have hhead := d.head?_text
  rw [hnil] at hhead
  rcases hhead with hhead | hhead <;> cases hhead

theorem Declaration.apart_text (d : Declaration) (t : List Char) : Apart (d.text.toList ++ t) := by
  intro c hc
  rw [List.head?_append_of_ne_nil _ d.toList_text_ne] at hc
  rcases d.head?_text with hhead | hhead <;>
  · cases hhead.symm.trans hc
    decide

/-! ## Sources -/

theorem SourceLine.findings_text (l : SourceLine) (ht : Apart t) :
    findings declaration? (l.text.toList ++ t) =
      (l.specifier?.map String.toList).toList ++ findings declaration? t := by
  cases l with
  | plain x => exact x.findings_append ht
  | declaring before d behind =>
    have hsplit : (declaring before d behind).text.toList ++ t =
        before.text.toList ++ (d.text.toList ++ (behind.text.toList ++ t)) := by
      simp [text]
    rw [hsplit, before.findings_append (d.apart_text _),
      findings_append_of_some d.toList_text_ne (d.declaration?_text _), behind.findings_append ht]
    rfl

/-- Line by line, what is found is what was declared. -/
theorem findings_lines (ls : List SourceLine) :
    findings declaration? ("\n".intercalate (ls.map SourceLine.text)).toList =
      (ls.filterMap SourceLine.specifier?).map String.toList := by
  have hcons : ∀ (l : SourceLine) (ls : List SourceLine),
      ((l :: ls).filterMap SourceLine.specifier?).map String.toList =
        (l.specifier?.map String.toList).toList ++ (ls.filterMap SourceLine.specifier?).map String.toList := by
    intro l ls
    cases h : l.specifier? <;> simp [h]
  induction ls with
  | nil => rfl
  | cons l ls ih =>
    rw [hcons, ← ih]
    cases ls with
    | nil =>
      have hlast := l.findings_text apart_nil
      rw [List.append_nil] at hlast
      rw [List.map_singleton, String.intercalate_singleton, hlast]
      rfl
    | cons l' ls =>
      have hsplit : ("\n".intercalate ((l :: l' :: ls).map SourceLine.text)).toList =
          l.text.toList ++ '\n' :: ("\n".intercalate ((l' :: ls).map SourceLine.text)).toList := by
        simp [String.intercalate_cons_cons]
      have hbreak : declaration? ('\n' :: ("\n".intercalate ((l' :: ls).map SourceLine.text)).toList) = none :=
        declaration?_eq_none rfl rfl
      rw [hsplit, l.findings_text (apart_newline _), findings, scan_cons_of_none hbreak]
      rfl

/-- From a source whose lines declare one thing at most, the specifiers of the project are taken, in the order
of their first places and each once. -/
theorem extract_source (ls : List SourceLine) :
    extract ("\n".intercalate (ls.map SourceLine.text)) =
      ((ls.filterMap SourceLine.specifier?).filter isProject).eraseDups := by
  have hofList : String.ofList ∘ String.toList = id := funext fun _ => String.ofList_toList
  rw [extract, findings_lines, List.map_map, hofList, List.map_id, addNew_nil]

/-- Lines that declare something at their beginning and end in a semicolon. -/
def SourceLine.statement (d : Declaration) : SourceLine := .declaring { text := "" } d { text := ";" }

/-- Clauses that hold the words by which a declaration is read, specifiers that are not the project's or are
asked for twice, and a line that only looks like the end of a declaration. -/
def crowdedLines : List SourceLine :=
  [.statement (.names .inward { text := "React, \x7b useState \x7d" } { specifier := "react" }),
    .statement (.names .inward { text := "type from" } { specifier := "./from" }),
    .statement (.names .inward { text := "type" } { opening := '\'', specifier := "../type", closing := '\'' }),
    .plain { text := "" },
    .statement (.names .outward { text := "\x7b import as x,\n  y \x7d" } { specifier := "@/all" }),
    .statement (.effects { specifier := "./styles.css" }),
    .plain { text := "x from \"./nowhere\" expo" },
    .declaring { text := "const Lazy = lazy(() => " } (.call { specifier := "./from" }) { text := ");" }]

theorem extract_crowdedLines :
    let source := "\n".intercalate
      ["import React, \x7b useState \x7d from \"react\";",
        "import type from from \"./from\";",
        "import type from '../type';",
        "",
        "export \x7b import as x,\n  y \x7d from \"@/all\";",
        "import \"./styles.css\";",
        "x from \"./nowhere\" expo",
        "const Lazy = lazy(() => import(\"./from\"));"]
    extract source = ["./from", "../type", "@/all", "./styles.css"] := by
  intro source
  have hsource : source = "\n".intercalate (crowdedLines.map SourceLine.text) := by decide +kernel
  rw [hsource, extract_source]
  decide

end VersionedSite.Imports
