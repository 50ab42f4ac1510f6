import VersionedSite.Bundle.Build
import VersionedSite.Proofs.Text.Lines
import VersionedSite.Proofs.Text.Search
import VersionedSite.Proofs.Text.Trim

/-!
# Warnings among complaints

What a process complains of is a row of lines: warnings, which are marked, and remarks, which are not
(`Complaint`). Its warnings are read back from the text of all the lines, each one as it was given and in the
order in which they were given, whatever remarks stand between them (`warnings_textOf`). For this a line must
be one line, a warning must have no blanks around it, and a remark must not look like a warning
(`Complaint.Plain`).

* `build_complaints`: a build whose process ends well gives these warnings.
-/

namespace VersionedSite.Bundle

open Text

/-- A line that a process complains with. -/
inductive Complaint where
  /-- A message for whoever asked for the bundle. -/
  | warning (message : String)
  /-- Anything else. -/
  | remark (line : String)

namespace Complaint

/-- The message, if it is for whoever asked for the bundle. -/
def message? : Complaint → Option String
  | warning message => some message
  | remark _ => none

/-- The line without its end. -/
def line : Complaint → List Char
  | warning message => Runner.warningMark.toList ++ message.toList
  | remark line => line.toList

/-- The line as it is written. -/
def text : Complaint → String
  | warning message => complaintsOf [message]
  | remark line => line ++ "\n"

/-- Whether a complaint is a line by itself and what is read into it is what was meant. -/
inductive Plain : Complaint → Prop where
  | warning {message : String} (noBreak : ∀ c ∈ message.toList, isLineBreak c = false)
      (bare : Bare message.toList) : Plain (.warning message)
  | remark {line : String} (noBreak : ∀ c ∈ line.toList, isLineBreak c = false)
      (unmarked : ¬Runner.warningMark.toList <+: line.toList) : Plain (.remark line)

instance decidablePlain : DecidablePred Plain
  | .warning message =>
    decidable_of_iff (isUnbroken message.toList = true ∧ trim message.toList = message.toList)
      ⟨fun h => .warning (isUnbroken_iff.1 h.1) (bare_iff_trim_eq.2 h.2),
        fun | .warning noBreak bare => ⟨isUnbroken_iff.2 noBreak, bare.trim_eq⟩⟩
  | .remark line =>
    decidable_of_iff (isUnbroken line.toList = true ∧ ¬Runner.warningMark.toList <+: line.toList)
      ⟨fun h => .remark (isUnbroken_iff.1 h.1) h.2,
        fun | .remark noBreak unmarked => ⟨isUnbroken_iff.2 noBreak, unmarked⟩⟩

variable {c : Complaint}

theorem toList_text (c : Complaint) : c.text.toList = c.line ++ ['\n'] := by
  cases c <;> simp [text, line, complaintsOf]

theorem Plain.noBreak_line (h : c.Plain) : ∀ d ∈ c.line, isLineBreak d = false := by
  have hmark : ∀ d ∈ Runner.warningMark.toList, isLineBreak d = false := isUnbroken_iff.1 (by decide)
  cases h with
  | warning noBreak _ => exact List.forall_mem_append.2 ⟨hmark, noBreak⟩
  | remark noBreak _ => exact noBreak

/-- The line is taken for what it is. -/
theorem Plain.read_line (h : c.Plain) :
    ((after? Runner.warningMark.toList c.line).map fun rest => String.ofList (trim rest)) = c.message? := by
  cases h with
  | warning _ bare =>
    rw [line, after?_append, Option.map_some, bare.trim_eq, String.ofList_toList, message?]
  | remark _ unmarked => rw [line, after?_eq_none_iff.2 unmarked, Option.map_none, message?]

/-- The text of a row of complaints. -/
def textOf (complaints : List Complaint) : String := String.join (complaints.map text)

theorem toList_textOf (complaints : List Complaint) :
    (textOf complaints).toList = (complaints.map line).flatMap fun l => l ++ ['\n'] := by
  rw [textOf, String.toList_join, List.flatMap_map, List.flatMap_map]
  exact List.flatMap_congr fun c _ => c.toList_text

end Complaint

open Complaint

/-- The warnings are read back from between the remarks, as they were given. -/
theorem warnings_textOf {complaints : List Complaint} (h : ∀ c ∈ complaints, c.Plain) :
    Runner.warnings (textOf complaints).toList = complaints.filterMap message? := by
  have hlines : ∀ l ∈ complaints.map line, ∀ d ∈ l, isLineBreak d = false :=
    List.forall_mem_map.2 fun c hc => (h c hc).noBreak_line
  rw [Runner.warnings, toList_textOf, lines_flatMap hlines, List.filterMap_map]
  exact List.filterMap_congr fun c hc => (h c hc).read_line

theorem build_complaints {r : Runner} (hr : r.givesTime = true) {complaints : List Complaint}
    (h : ∀ c ∈ complaints, c.Plain) (code : String) :
    r.build (.ended 0 (Utf8.encode code.toList) (Utf8.encode (textOf complaints).toList)) =
      .ok { code, warnings := complaints.filterMap message? } := by
  rw [Runner.build_ended hr, warnings_textOf h, String.ofList_toList]

end VersionedSite.Bundle
