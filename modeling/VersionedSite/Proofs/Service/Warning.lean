import VersionedSite.Proofs.Bundle.Complaint
import VersionedSite.Proofs.Distinct
import VersionedSite.Proofs.Service.Rendering

/-!
# Warnings of rendered sites

A site that is rendered from components tells what was wrong with them: the warnings of its import graph, and
behind them those of the process that bundled it. They come through as they were given, in their order and
each text once (`build_and_warnings_of_complaints`), so that what is replaced by an empty module is said to be.
-/

namespace VersionedSite.Service

open VersionedSite.Bundle Text

variable {settings : Settings} {tools : Toolchain} {s : Service} {project : String} {number : Int}
  {graph : ImportGraph} {output : Output}

theorem warningsOf_eq (graph : ImportGraph) (output : Output) :
    warningsOf graph output = (graph.warnings ++ output.warnings).eraseDups :=
  addNew_nil _

/-- What a document that is rendered from a graph warns of. -/
theorem warnings_of_document (hg : graphAt settings s.store project number = some graph)
    (hb : tools.build (.ofGraph .server graph) = .ok output) {document : Document}
    (hd : (renderComponents settings tools s project number).1.document = some document) :
    document.warnings = (graph.warnings ++ output.warnings).eraseDups := by
  rcases tools.fails_or_renders graph with hfails | ⟨built, markup, hr⟩
  · rw [document_of_fails hg hfails] at hd
    cases hd
  · cases hb.symm.trans hr.built
    rw [document_of_renders hg hr] at hd
    cases hd
    exact warningsOf_eq graph output

/-- A build whose process ends well, in time and with a row of plain complaints gives its code and the
warnings among the complaints, in their order. A site that is rendered from it warns of what its graph warns
of and then of these, each text once and at its first place; and it is rendered if there is code that can
be. -/
theorem build_and_warnings_of_complaints {r : Runner} (hr : r.givesTime = true) {complaints : List Complaint}
    (h : ∀ c ∈ complaints, c.Plain) (code : String) :
    let ending : Ending :=
      .ended 0 (Utf8.encode code.toList) (Utf8.encode (Complaint.textOf complaints).toList)
    let messages := complaints.filterMap Complaint.message?
    r.build ending = .ok { code, warnings := messages } ∧
      ∀ (settings : Settings) (tools : Toolchain) (s : Service) (project : String) (number : Int)
        (graph : ImportGraph), graphAt settings s.store project number = some graph →
        tools.build (.ofGraph .server graph) = r.build ending →
        let document := (renderComponents settings tools s project number).1.document
        (∀ d, document = some d → d.warnings = (graph.warnings ++ messages).eraseDups) ∧
          ((∃ d, document = some d) ↔ code ≠ "" ∧ ∃ markup, tools.render code = .ok markup) := by
  intro ending messages
  have hbuild : r.build ending = .ok { code, warnings := messages } := build_complaints hr h code
  refine ⟨hbuild, fun settings tools s project number graph hg hb => ⟨fun d hd => ?_, ?_, ?_⟩⟩
  · exact warnings_of_document hg (hb.trans hbuild) hd
  · rintro ⟨d, hd⟩
    rcases tools.fails_or_renders graph with hfails | ⟨built, markup, hrenders⟩
    · rw [document_of_fails hg hfails] at hd
      cases hd
    · cases (hb.trans hbuild).symm.trans hrenders.built
      exact ⟨hrenders.code_ne, markup, hrenders.rendered⟩
  · rintro ⟨hcode, markup, hrender⟩
    exact ⟨_, document_of_renders hg ⟨hb.trans hbuild, hcode, hrender⟩⟩

/-- A site whose entry imports two files that are not there. -/
def unfinished : Store where
  revisions := [{ id := 1, project := "shop", number := 1, user := "ann", createdAt := 0 }]
  files :=
    [{ id := 1, project := "shop", path := "landing/index.tsx", role := "layout", createdAt := 0
       updatedAt := 0 }]
  versions :=
    [{ id := 1, file := 1, revision := 1, content := "import A from './a';\nimport B from './b';"
       createdAt := 0 }]

/-- Complaints about it: a warning that its graph has as well, one that is made twice and looks like a marked
line itself, an empty one, and remarks that only just are none. -/
def mixedComplaints : List Complaint :=
  [.remark "(node:1) Warning: deprecated", .warning "WARN again", .remark "", .remark " WARN indented",
    .warning "Unresolved import './b' in landing/index.tsx", .warning "", .warning "WARN again", .remark "WARN"]

theorem build_and_warnings_of_mixedComplaints :
    let r : Runner := { directory := "/proj" }
    let ending : Ending :=
      .ended 0 (Utf8.encode "code".toList) (Utf8.encode (Complaint.textOf mixedComplaints).toList)
    let tools : Toolchain := { build := fun _ => r.build ending, render := .ok }
    let s : Service := { start {} { sequence := fun _ => "" } with store := unfinished }
    r.givesTime = true ∧ (∀ c ∈ mixedComplaints, c.Plain) ∧
      r.build ending = .ok
        { code := "code"
          warnings := ["WARN again", "Unresolved import './b' in landing/index.tsx", "", "WARN again"] } ∧
      ∃ d, (renderComponents {} tools s "shop" 1).1.document = some d ∧
        d.warnings =
          ["Unresolved import './a' in landing/index.tsx", "Unresolved import './b' in landing/index.tsx",
            "WARN again", ""] := by
  intro r ending tools s
  have hplain : ∀ c ∈ mixedComplaints, c.Plain := by decide
  have hgraph : (graphAt {} s.store "shop" 1).map ImportGraph.warnings =
      some ["Unresolved import './a' in landing/index.tsx",
        "Unresolved import './b' in landing/index.tsx"] := by
    unfold graphAt
    decide +kernel
  obtain ⟨graph, hg, hwarnings⟩ := Option.map_eq_some_iff.1 hgraph
  obtain ⟨hbuild, hsite⟩ := build_and_warnings_of_complaints (r := r) (by decide) hplain "code"
  obtain ⟨hmerged, hrendered⟩ := hsite {} tools s "shop" 1 graph hg rfl
  obtain ⟨d, hd⟩ := hrendered.2 ⟨by decide, "code", rfl⟩
  refine ⟨by decide, hplain, hbuild, d, hd, ?_⟩
  rw [hmerged d hd, hwarnings]
  decide

end VersionedSite.Service
