import VersionedSite.Proofs.Bundle.Sandbox
import VersionedSite.Proofs.Store.Contents
import VersionedSite.Service.Publishing

/-!
# What composing leaves behind

Composing a site touches nothing but the directory that modules are rendered from, and draws identifiers
(`documentAt_snd`). Neither matters to what is composed: the same contents make the same site and the same
browser module (`documentAt_congr`, `bundleAt_congr`).
-/

namespace VersionedSite

/-- A supply of identifiers after so many more draws. -/
def IdSupply.skip (ids : IdSupply) (count : Nat) : IdSupply := { ids with drawn := ids.drawn + count }

namespace Service

section Leaves

variable (settings : Settings) (tools : Toolchain) (s : Service)

theorem renderComponents_snd (project : String) (number : Int) :
    ∃ modules count, (renderComponents settings tools s project number).2 =
      { s with modules, ids := s.ids.skip count } := by
  unfold renderComponents
  split
  · exact ⟨_, 0, rfl⟩
  · dsimp only
    split
    · exact ⟨_, 0, rfl⟩
    · exact ⟨_, 1, rfl⟩

theorem composeAs_snd (project : String) (number : Int) (flavour : Flavour) :
    ∃ modules count, (composeAs settings tools s project number flavour).2 =
      { s with modules, ids := s.ids.skip count } := by
  cases flavour with
  | documents => exact ⟨_, 0, rfl⟩
  | components =>
    obtain ⟨modules, count, h⟩ := renderComponents_snd settings tools s project number
    refine ⟨modules, count, ?_⟩
    unfold composeAs
    dsimp only
    split <;> exact h

theorem documentAt_snd (project : String) (number : Int) :
    ∃ modules count, (documentAt settings tools s project number).2 =
      { s with modules, ids := s.ids.skip count } := by
  unfold documentAt
  split
  · exact ⟨_, 0, rfl⟩
  · rename_i flavour _
    obtain ⟨modules, count, h⟩ := composeAs_snd settings tools s project number flavour
    refine ⟨modules, count, ?_⟩
    dsimp only
    split <;> exact h

theorem publishedDocument_snd (publicId : String) :
    ∃ modules count, (publishedDocument settings tools s publicId).2 =
      { s with modules, ids := s.ids.skip count } := by
  unfold publishedDocument
  split
  · exact ⟨_, 0, rfl⟩
  · exact documentAt_snd settings tools s _ _

end Leaves

/-! ## The same site -/

section Congr

open Store

variable {s t : Service} {project : String} {number : Int}

theorem flavour?_congr {s t : Store} {m n : Int} (h : SameContents project s m t n) :
    flavour? t project n = flavour? s project m := by
  simp only [flavour?, h.isSome]

theorem composeDocuments_congr (h : SameContents project s.store number t.store number)
    (settings : Settings) :
    composeDocuments settings t.store project number =
      composeDocuments settings s.store project number := by
  simp only [composeDocuments, h.content]

variable (h : SameContents project s.store number t.store number) (hs : s.store.Keyed)
  (hsc : s.store.Coherent) (ht : t.store.Keyed) (htc : t.store.Coherent) (settings : Settings)
  (tools : Toolchain)

include h hs hsc ht htc

theorem graphAt_congr :
    graphAt settings t.store project number = graphAt settings s.store project number := by
  have hentries : (t.store.filesAt project number).map (fun f => (f.path, f.content)) =
      (s.store.filesAt project number).map fun f => (f.path, f.content) := by
    have hlisted := congrArg (List.map fun c => (c.1, c.2.1)) (h.filesAt hs hsc ht htc)
    rwa [List.map_map, List.map_map] at hlisted
  simp only [graphAt, hentries]

theorem document_renderComponents_congr :
    (renderComponents settings tools t project number).1.document =
      (renderComponents settings tools s project number).1.document := by
  unfold renderComponents
  rw [graphAt_congr h hs hsc ht htc settings]
  cases graphAt settings s.store project number with
  | none => rfl
  | some graph =>
    dsimp only
    cases built? tools (Bundle.Request.ofGraph .server graph) with
    | none => rfl
    | some output => simp only [Bundle.result_attempt]

theorem document_composeAs_congr (flavour : Flavour) :
    (composeAs settings tools t project number flavour).1.document =
      (composeAs settings tools s project number flavour).1.document := by
  have hdocuments := composeDocuments_congr h settings
  cases flavour with
  | documents => exact hdocuments
  | components =>
    have hrendered := document_renderComponents_congr h hs hsc ht htc settings tools
    unfold composeAs
    dsimp only
    rw [hrendered]
    obtain ⟨_, _, hsrest⟩ := renderComponents_snd settings tools s project number
    obtain ⟨_, _, htrest⟩ := renderComponents_snd settings tools t project number
    cases (renderComponents settings tools s project number).1.document with
    | none =>
      rw [hsrest, htrest]
      exact hdocuments
    | some document => exact hrendered

/-- The same contents make the same browser module. -/
theorem bundleAt_congr :
    bundleAt settings tools t.store project number = bundleAt settings tools s.store project number := by
  simp only [bundleAt, bundleComponents, flavour?_congr h, graphAt_congr h hs hsc ht htc settings]

/-- The same contents make the same site. -/
theorem documentAt_congr :
    (documentAt settings tools t project number).1 = (documentAt settings tools s project number).1 := by
  unfold documentAt
  rw [flavour?_congr h]
  cases flavour? s.store project number with
  | none => rfl
  | some flavour =>
    dsimp only
    rw [document_composeAs_congr h hs hsc ht htc settings tools flavour]
    cases (composeAs settings tools s project number flavour).1.document <;> rfl

end Congr

end Service

end VersionedSite
