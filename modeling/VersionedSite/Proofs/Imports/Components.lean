import VersionedSite.Proofs.Imports.Lookup
import VersionedSite.Proofs.Imports.Walk
import VersionedSite.Proofs.Path

/-!
# What a component build takes in

What an import asks for ends in a component extension, but the stored path that stands for it is found
without regard to extensions. It is a component, unless what is asked for is a stored path as it is with a
component extension behind it, or the index of a directory (`Imports.Extends`). So a document comes into the
graph exactly if an import spells out its name (`collect_components`, `collect_of_named_document`).

* `admits_of_findMatch?_iff`: whether it is a component.
-/

namespace VersionedSite

open Text

namespace Imports

variable {requested path : String} {stored : List String}

/-! ## Paths without their extension -/

theorem foldedBase_of_not_admits (h : PathMode.component.admits path.toList = false) :
    foldedBase path = foldedPath path := by
  have hnone : (PathMode.component.extensions.find? fun ext =>
      ext.toList.isSuffixOf (lower path.toList)) = none :=
    List.find?_eq_none.2 fun ext he => by simpa using List.any_eq_false.1 h ext he
  rw [foldedBase, Path.withoutExtension, hnone]
  rfl

/-- A component extension that is taken off makes a path shorter. -/
theorem length_foldedBase_lt (h : PathMode.component.admits path.toList = true) :
    (foldedBase path).length < (foldedPath path).length := by
  obtain ⟨ext, he, hs⟩ := List.any_eq_true.1 h
  obtain ⟨found, hfound⟩ : ∃ found, (PathMode.component.extensions.find? fun ext =>
      ext.toList.isSuffixOf (lower path.toList)) = some found :=
    Option.isSome_iff_exists.1 (List.find?_isSome.2 ⟨ext, he, hs⟩)
  have hne : path.toList ≠ [] := by
    intro hnil
    rw [hnil, lower_nil] at hs
    exact PathMode.extension_ne_empty ext he (List.suffix_nil.1 (List.isSuffixOf_iff_suffix.1 hs))
  have hpath := List.length_pos_of_ne_nil hne
  have hext := List.length_pos_of_ne_nil (PathMode.extension_ne_empty found (List.mem_of_find?_eq_some hfound))
  rw [String.length_toList] at hpath hext
  rw [foldedBase, Path.withoutExtension, hfound, String.toList_ofList]
  refine length_lower_take_lt ?_
  rw [String.length_toList]
  omega

/-! ## Matches -/

/-- Whether a requested path is another one, up to its case, with a component extension behind it, or
names the directory that the other one is the index of. -/
def Extends (requested path : String) : Prop :=
  foldedPath path = foldedBase requested ∨ foldedPath path = foldedBase requested ++ "/index".toList

theorem not_admits_of_index {base : List Char} (h : foldedPath path = base ++ "/index".toList)
    (mode : PathMode) : mode.admits path.toList = false := by
  refine Bool.eq_false_iff.2 fun hadmits => ?_
  obtain ⟨ext, he, hs⟩ := PathMode.admits_iff.1 hadmits
  rw [← foldedPath, h] at hs
  have hapart : ∀ mode : PathMode, ∀ ext ∈ mode.extensions,
      ¬ext.toList <:+ "/index".toList ∧ ¬"/index".toList <:+ ext.toList := by
    rintro (_ | _) <;> decide
  rcases List.suffix_or_suffix_of_suffix hs (List.suffix_append base _) with hs | hs
  · exact (hapart mode ext he).1 hs
  · exact (hapart mode ext he).2 hs

/-- The stored path that stands for a component path is a component, unless the component path only
extends it. -/
theorem admits_of_findMatch?_iff (hr : PathMode.component.admits requested.toList = true)
    (h : findMatch? requested stored = some path) :
    PathMode.component.admits path.toList = true ↔ ¬Extends requested path := by
  constructor
  · intro hadmits hextends
    have hlt := length_foldedBase_lt hadmits
    rcases hextends with hextends | hextends
    · rw [hextends] at hlt
      rcases findMatch?_cases h with he | he | he
      · have hshorter := length_foldedBase_lt hr
        rw [← he, hextends] at hshorter
        exact Nat.lt_irrefl _ hshorter
      · rw [he] at hlt
        exact Nat.lt_irrefl _ hlt
      · rw [he, List.length_append] at hlt
        exact absurd hlt (Nat.not_lt.2 (Nat.le_add_right _ _))
    · cases hadmits.symm.trans (not_admits_of_index hextends .component)
  · intro hextends
    refine Bool.of_not_eq_false fun hnot => hextends ?_
    have hbase := foldedBase_of_not_admits hnot
    rcases findMatch?_cases h with he | he | he
    · rw [PathMode.admits, ← foldedPath, he, foldedPath, ← PathMode.admits, hr] at hnot
      cases hnot
    · exact .inl (hbase.symm.trans he)
    · exact .inr (hbase.symm.trans he)

end Imports

/-! ## Graphs -/

namespace ImportGraph

variable {snapshot : Snapshot} {limits : Limits} {root importer spec path : String}

/-- Every file of a graph is its root or what an import of it leads to. -/
def Imported (snapshot : Snapshot) (root : String) (g : ImportGraph) : Prop :=
  ∀ path ∈ g.files.keys, path = root ∨ ∃ importer spec,
    target? snapshot importer spec = some path ∧ g.resolution? importer spec = some path

theorem Imported.resolving {g : ImportGraph} (h : g.Imported snapshot root)
    (ht : target? snapshot importer spec = some path) :
    (g.resolving importer spec path).Imported snapshot root := by
  intro p hp
  refine (h p hp).imp_right ?_
  rintro ⟨i, s, his, hr⟩
  refine ⟨i, s, his, ?_⟩
  rw [resolution?_resolving]
  split
  · rename_i he
    cases he
    exact ht.symm.trans his
  · exact hr

theorem Walk.imported_follow {w : Walk} (h : w.graph.Imported snapshot root) (importer : String)
    (level : Nat) (spec : String) :
    (w.follow snapshot limits importer level spec).graph.Imported snapshot root := by
  obtain ⟨why, he, -⟩ | ⟨path, ht, ⟨-, he⟩ | ⟨hm, -, source, -, he⟩⟩ :=
    w.follow_cases snapshot limits importer level spec
  · rw [he]
    exact h
  · rw [he]
    exact h.resolving ht
  · rw [he]
    intro p hp
    have hkeys : p ∈ w.graph.files.keys ++ [path] :=
      OrderedMap.keys_insert_of_not_mem _ hm source ▸ hp
    rcases List.mem_append.1 hkeys with hp | hp
    · exact h.resolving ht p hp
    · rw [List.mem_singleton.1 hp]
      exact .inr ⟨importer, spec, ht, by rw [resolution?_resolving, if_pos rfl]⟩

/-- Every file of a graph but its entry is what an import of it leads to. -/
theorem collect_imported {entry : String}
    (h : Imports.findMatch? entry snapshot.keys = some root) (limits : Limits) :
    (collect entry snapshot limits).Imported snapshot root := by
  obtain ⟨source, hs⟩ := OrderedMap.exists_find?_of_mem (Imports.findMatch?_mem h)
  rw [collect_eq_run limits h hs]
  refine Walk.run_keeps (fun _ importer level spec h => Walk.imported_follow h importer level spec) _ ?_
  exact fun p hp => .inl (List.mem_singleton.1 hp)

/-- What an import leads to is a component, unless what it asks for only extends it. -/
theorem admits_of_target?_iff {requested : String} (hr : Imports.resolve? importer spec = some requested)
    (ht : target? snapshot importer spec = some path) :
    PathMode.component.admits path.toList = true ↔ ¬Imports.Extends requested path := by
  rw [target?, hr, Option.bind_some] at ht
  have hcanonical := Imports.resolve?_canonical hr
  rw [Path.isCanonical, Path.admissible, Bool.and_eq_true] at hcanonical
  exact Imports.admits_of_findMatch?_iff hcanonical.2 ht

/-- If a graph begins at a component, all its files are components exactly if no import asks for what
only extends the file that it leads to. A document is one of its files exactly if an import asks for it
by its full name, with a component extension behind it. -/
theorem collect_components (entry : String) (snapshot : Snapshot) (limits : Limits)
    (hentry : PathMode.component.admits (collect entry snapshot limits).entry.toList = true) :
    let g := collect entry snapshot limits
    ((∀ path ∈ g.files.keys, PathMode.component.admits path.toList = true) ↔
      ∀ importer spec requested path, Imports.resolve? importer spec = some requested →
        g.resolution? importer spec = some path → ¬Imports.Extends requested path) ∧
    ∀ path, PathMode.document.admits path.toList = true →
      (path ∈ g.files.keys ↔ ∃ importer spec requested,
        Imports.resolve? importer spec = some requested ∧ g.resolution? importer spec = some path ∧
          Imports.foldedPath path = Imports.foldedBase requested) := by
  intro g
  cases hroot : Imports.findMatch? entry snapshot.keys with
  | none =>
    have hg : g = { entry, warnings := [s!"Entry {entry} not found"] } := collect_notFound limits hroot
    have hfiles : g.files.keys = [] := by rw [hg]; rfl
    have hnone : ∀ importer spec, g.resolution? importer spec = none := by rw [hg]; exact fun _ _ => rfl
    simp [hfiles, hnone]
  | some root =>
    obtain ⟨level, hsettled⟩ := exists_settled_collect limits hroot
    have himported : g.Imported snapshot root := collect_imported hroot limits
    have hstart : PathMode.component.admits root.toList = true := hsettled.entry_eq ▸ hentry
    have hresolution : ∀ {importer spec path}, g.resolution? importer spec = some path →
        target? snapshot importer spec = some path ∧ path ∈ g.files.keys :=
      fun hr => ((hsettled.resolution_iff _ _ _).1 hr).2
    refine ⟨⟨fun hall importer spec requested path hr hres => ?_, fun hnone path hp => ?_⟩,
      fun path hdocument => ⟨fun hp => ?_, ?_⟩⟩
    · obtain ⟨ht, hp⟩ := hresolution hres
      exact (admits_of_target?_iff hr ht).1 (hall path hp)
    · rcases himported path hp with rfl | ⟨importer, spec, ht, hres⟩
      · exact hstart
      · obtain ⟨requested, hr, -⟩ := Option.bind_eq_some_iff.1 ht
        exact (admits_of_target?_iff hr ht).2 (hnone importer spec requested path hr hres)
    · rcases himported path hp with rfl | ⟨importer, spec, ht, hres⟩
      · cases PathMode.admits_unique hstart hdocument
      · obtain ⟨requested, hr, -⟩ := Option.bind_eq_some_iff.1 ht
        refine ⟨importer, spec, requested, hr, hres, ?_⟩
        have hextends : Imports.Extends requested path := by
          by_contra hnot
          cases PathMode.admits_unique ((admits_of_target?_iff hr ht).2 hnot) hdocument
        refine hextends.resolve_right fun hindex => ?_
        cases hdocument.symm.trans (Imports.not_admits_of_index hindex .document)
    · rintro ⟨importer, spec, requested, -, hres, -⟩
      exact (hresolution hres).2

/-- A site with a document whose name without its extension is imported. -/
def besidePage : Snapshot := .ofList
  [("landing/index.tsx", "import './hero'\nimport './page'\n"), ("landing/hero.ts", ""),
   ("landing/page.html", "<p>Hi</p>")]

/-- No import asks for the document, and it stays out. -/
theorem collect_components_besidePage :
    let g := collect "landing/index.tsx" besidePage
    PathMode.component.admits g.entry.toList = true ∧ g.files.keys = ["landing/index.tsx", "landing/hero.ts"] ∧
      (∀ importer spec requested path, Imports.resolve? importer spec = some requested →
        g.resolution? importer spec = some path → ¬Imports.Extends requested path) ∧
      PathMode.document.admits "landing/page.html".toList = true ∧
      ¬∃ importer spec requested, Imports.resolve? importer spec = some requested ∧
        g.resolution? importer spec = some "landing/page.html" ∧
          Imports.foldedPath "landing/page.html" = Imports.foldedBase requested := by
  intro g
  have hentry : PathMode.component.admits g.entry.toList = true := by decide +kernel
  have hkeys : g.files.keys = ["landing/index.tsx", "landing/hero.ts"] := by decide +kernel
  have hpage : PathMode.document.admits "landing/page.html".toList = true := by decide +kernel
  obtain ⟨hcomponents, hdocuments⟩ := collect_components "landing/index.tsx" besidePage {} hentry
  refine ⟨hentry, hkeys, hcomponents.1 ?_, hpage, fun hnamed => ?_⟩
  · show ∀ path ∈ g.files.keys, _
    rw [hkeys]
    decide +kernel
  · have hmem : "landing/page.html" ∈ g.files.keys := (hdocuments _ hpage).2 hnamed
    rw [hkeys] at hmem
    exact absurd hmem (by decide)

/-- An import of a document by its full name takes the document in. -/
theorem collect_of_named_document :
    let g := collect "landing/index.tsx" (.ofList
      [("landing/index.tsx", "import './page.html'\n"), ("landing/page.html", "<p>Hi</p>")])
    PathMode.component.admits g.entry.toList = true ∧ "landing/page.html" ∈ g.files.keys ∧
      PathMode.component.admits "landing/page.html".toList = false := by
  decide +kernel

end ImportGraph

end VersionedSite
