import VersionedSite.Imports.Resolve
import VersionedSite.Proofs.Path

/-!
# Where specifiers can lead

Whatever an importing file and a specifier are, what the specifier leads to is a component below the site
root, in canonical form (`Sited`). From such a file a plain specifier is followed step by step, from the
file's directory or from the site root: it leads to where the steps end, and nowhere exactly if that is not
below the site root (`resolve?_confined`).

* `Place`, `Place.follow`: where steps lead, above the project too.
* `walk_append_slash`: the segments that a path leads through are those to the place where it ends.
* `segments_directory`: the directory of a path is the path without its last segment.
-/

namespace VersionedSite

open Text

/-! ## The default extension -/

namespace Imports

variable {path : List Char}

theorem admits_withExtension (path : List Char) :
    PathMode.component.admits (withExtension path) = true := by
  rw [withExtension]
  split
  · assumption
  · refine PathMode.admits_iff.2 ⟨".tsx", by simp [PathMode.extensions], ?_⟩
    have hsource : ".tsx".toList.all comesFromRegular = true := by decide
    have hregular : ".tsx".toList.all isRegular = true := by decide
    exact (suffix_lower_iff (List.all_eq_true.1 hsource)).2
      ⟨".tsx".toList, List.suffix_append _ _, List.all_eq_true.1 hregular, rfl⟩

theorem prefix_withExtension (path : List Char) : path <+: withExtension path := by
  rw [withExtension]
  split
  · exact List.prefix_rfl
  · exact List.prefix_append _ _

theorem not_mem_withExtension {c : Char} (h : c ∉ path) (hc : c ∉ ".tsx".toList) :
    c ∉ withExtension path := by
  rw [withExtension]
  split
  · exact h
  · exact fun hmem => (List.mem_append.1 hmem).elim h hc

/-- With the default extension behind it a name is still a name. -/
theorem isName_withExtension (h : ∀ segment ∈ Path.segments path, Path.IsName segment) :
    ∀ segment ∈ Path.segments (withExtension path), Path.IsName segment := by
  rw [withExtension]
  split
  · exact h
  · obtain ⟨init, last, hsegments⟩ :=
      (List.eq_nil_or_concat' _).resolve_left (Path.segments_ne_nil path)
    rw [Path.segments_append hsegments (by decide)]
    rw [hsegments, List.forall_mem_append] at h
    refine List.forall_mem_append.2 ⟨h.1, List.forall_mem_singleton.2 ?_⟩
    -- It is longer than any segment that is no name.
    have hlength : 4 ≤ (last ++ ".tsx".toList).length := by
      rw [List.length_append]
      exact Nat.le_add_left 4 _
    refine ⟨?_, ?_, ?_⟩ <;> intro he <;> rw [he] at hlength <;> exact absurd hlength (by decide)

end Imports

/-! ## Results -/

namespace Path

theorem exists_collapseSlashes_cons (path : List Char) :
    ∃ rest, collapseSlashes ('/' :: path) = '/' :: rest := by
  induction path with
  | nil => exact ⟨[], rfl⟩
  | cons c path ih =>
    by_cases hc : c = '/'
    · rw [hc, collapseSlashes]
      exact ih
    · refine ⟨collapseSlashes (c :: path), ?_⟩
      rw [collapseSlashes]
      rintro rest - he
      exact hc (List.cons.inj he).1

/-- What begins below the site root begins there when it is tidied. -/
theorem prefix_tidy {path : List Char} (hbare : Bare path) (h : "landing/".toList <+: path) :
    "landing/".toList <+: tidy path := by
  obtain ⟨rest, rfl⟩ := h
  obtain ⟨tail, htail⟩ := exists_collapseSlashes_cons (forwardSlashes rest)
  have hcollapse : collapseSlashes ("landing".toList ++ '/' :: forwardSlashes rest) =
      "landing".toList ++ collapseSlashes ('/' :: forwardSlashes rest) := rfl
  have hforward : forwardSlashes ("landing/".toList ++ rest) =
      "landing".toList ++ '/' :: forwardSlashes rest := rfl
  rw [tidy, hbare.trim_eq, hforward, hcollapse, htail]
  exact ⟨tail, rfl⟩

end Path

namespace Imports

variable {importer spec : String}

/-- A component below the site root, in canonical form. -/
structure Sited (path : String) : Prop where
  below : "landing/".toList <+: path.toList
  names : ∀ segment ∈ Path.segments path.toList, Path.IsName segment
  backslash_not_mem : '\\' ∉ path.toList
  nul_not_mem : '\x00' ∉ path.toList
  admits : PathMode.component.admits path.toList = true
  normal : Path.normalize? .component path = some path

theorem isBlank_head_of_below {path : List Char} (h : "landing/".toList <+: path) :
    ∀ c, path.head? = some c → isBlank c = false := by
  obtain ⟨rest, rfl⟩ := h
  intro c hc
  cases hc
  decide

theorem sited_of_canonical {path : String} (h : Path.Canonical .component path)
    (hbelow : "landing/".toList <+: path.toList) : Sited path :=
  ⟨hbelow, h.proper, h.backslash_not_mem, h.nul_not_mem, h.admits,
    h.normalize?_eq (isBlank_head_of_below hbelow)⟩

theorem below_of_belowRoot? {path result : List Char} (h : belowRoot? path = some result) :
    "landing/".toList <+: result := by
  rw [belowRoot?] at h
  split at h
  · rename_i first second rest _
    obtain ⟨hfirst, ⟨⟩⟩ := Option.ite_none_right_eq_some.1 h
    rw [eq_of_beq hfirst, List.intercalate_cons_cons]
    exact List.prefix_append _ _
  · cases h

/-- Whatever a specifier leads to is a component below the site root. -/
theorem sited_of_resolve? {path : String} (h : resolve? importer spec = some path) : Sited path := by
  obtain ⟨found, hfound, hpath⟩ := Option.bind_eq_some_iff.1 h
  obtain ⟨target, -, hbelow⟩ := Option.bind_eq_some_iff.1 hfound
  have hprefix : "landing/".toList <+: withExtension found :=
    (below_of_belowRoot? hbelow).trans (prefix_withExtension found)
  have hbare : Bare (withExtension found) :=
    ⟨isBlank_head_of_below hprefix, PathMode.isBlank_getLast?_of_admits (admits_withExtension found)⟩
  refine sited_of_canonical (.of_normalize? hpath) ?_
  have htidy := Path.prefix_tidy hbare hprefix
  rw [← String.toList_ofList (l := withExtension found), ← String.toList_ofList (l := Path.tidy _),
    (Path.normalize?_eq_some.1 hpath).1] at htidy
  exact htidy

/-! ## Places -/

/-- A place, told from where a project is: so many directories up, and the names to go down from
there. -/
structure Place where
  above : Nat := 0
  names : List (List Char)
  deriving DecidableEq

namespace Place

variable {p : Place} {name segment : List Char}

/-- One step from a place: an empty step and `.` stay, `..` goes up. -/
def enter (p : Place) (segment : List Char) : Place :=
  if segment = [] ∨ segment = ['.'] then p
  else if segment = ['.', '.'] then
    if p.names = [] then { p with above := p.above + 1 } else { p with names := p.names.dropLast }
  else { p with names := p.names ++ [segment] }

/-- Where a path leads to from a place. -/
def follow (p : Place) (path : List Char) : Place := (Path.segments path).foldl enter p

/-- Whether a place is below the site root, and not the site root itself. -/
def IsBelowRoot (p : Place) : Prop :=
  p.above = 0 ∧ ∃ name names, p.names = Path.siteRoot.toList :: name :: names

/-- The path of a place that is in the project. -/
def path (p : Place) : List Char := ['/'].intercalate p.names

/-- The segments that lead to a place. -/
def steps (p : Place) : List (List Char) := List.replicate p.above ['.', '.'] ++ p.names

theorem of_mem_enter (h : name ∈ (p.enter segment).names) :
    name ∈ p.names ∨ name = segment ∧ Path.IsName name := by
  rw [enter] at h
  split at h
  · exact .inl h
  · rename_i hstay
    split at h
    · split at h
      · exact .inl h
      · exact .inl (List.mem_of_mem_dropLast h)
    · rename_i hup
      refine (List.mem_append.1 h).imp_right fun hname => ?_
      obtain rfl := List.mem_singleton.1 hname
      exact ⟨rfl, fun he => hstay (.inl he), fun he => hstay (.inr he), hup⟩

/-- The names to go down by are those that there were, and segments of the path. -/
theorem of_mem_follow {path : List Char} (h : name ∈ (p.follow path).names) :
    name ∈ p.names ∨ name ∈ Path.segments path ∧ Path.IsName name := by
  rw [follow] at h
  generalize Path.segments path = segments at h ⊢
  induction segments generalizing p with
  | nil => exact .inl h
  | cons segment segments ih =>
    rcases ih h with h | ⟨hmem, hproper⟩
    · refine (of_mem_enter h).imp_right ?_
      rintro ⟨rfl, hproper⟩
      exact ⟨List.mem_cons_self, hproper⟩
    · exact .inr ⟨List.mem_cons_of_mem _ hmem, hproper⟩

/-- A walk keeps the steps to the place where it is, the last of them first. -/
theorem walkStep_steps (h : ['.', '.'] ∉ p.names) (segment : List Char) :
    walkStep p.steps.reverse segment = (p.enter segment).steps.reverse := by
  rw [walkStep.eq_def, enter]
  simp only [Bool.or_eq_true, beq_iff_eq]
  split
  · rfl
  split
  · rename_i hup
    rcases List.eq_nil_or_concat' p.names with hnil | ⟨init, last, hnames⟩
    · rw [if_pos hnil, steps, steps, hnil, List.append_nil, List.append_nil, List.reverse_replicate,
        List.reverse_replicate, hup]
      cases p.above with
      | zero => rfl
      | succ n => rfl
    · have hlast : last ≠ ['.', '.'] := fun he => h (hnames ▸ he ▸ List.mem_concat_self)
      have hne : p.names ≠ [] := by
        rw [hnames]
        exact List.append_ne_nil_of_right_ne_nil _ (List.cons_ne_nil _ _)
      rw [if_neg hne, steps, steps, hnames, ← List.append_assoc, List.reverse_concat,
        List.dropLast_concat]
      exact if_neg hlast
  · rw [steps, steps, ← List.append_assoc, List.reverse_concat]

theorem foldl_walkStep (h : ['.', '.'] ∉ p.names) (segments : List (List Char)) :
    segments.foldl walkStep p.steps.reverse = (segments.foldl enter p).steps.reverse := by
  induction segments generalizing p with
  | nil => rfl
  | cons segment segments ih =>
    rw [List.foldl_cons, List.foldl_cons, walkStep_steps h]
    exact ih fun hmem => (of_mem_enter hmem).elim h fun ⟨_, _, _, hup⟩ => hup rfl

/-- Names lead down to the place that they name. -/
theorem foldl_enter {names : List (List Char)} (h : ∀ name ∈ names, Path.IsName name) :
    names.foldl enter p = { p with names := p.names ++ names } := by
  induction names generalizing p with
  | nil => rw [List.foldl_nil, List.append_nil]
  | cons name names ih =>
    rw [List.forall_mem_cons] at h
    have henter : p.enter name = { p with names := p.names ++ [name] } := by
      rw [enter, if_neg (not_or.2 ⟨h.1.1, h.1.2.1⟩), if_neg h.1.2.2]
    rw [List.foldl_cons, ih h.2, henter, List.append_assoc]
    rfl

/-- A walk behind a path of names ends where the place that they name leads on to. -/
theorem walk_append_slash {path : List Char} (h : ∀ name ∈ Path.segments path, Path.IsName name)
    (rest : List Char) :
    walk (path ++ '/' :: rest) = (follow { names := Path.segments path } rest).steps := by
  have hstart : (Path.segments path).foldl enter { names := [] } = { names := Path.segments path } :=
    foldl_enter h
  have hwalk := foldl_walkStep (p := { names := [] }) List.not_mem_nil
    (Path.segments path ++ Path.segments rest)
  rw [walk, Path.segments_append_slash, List.reverse_eq_iff, follow, ← hstart, ← List.foldl_append]
  exact hwalk

/-- The path that leads to a place below the site root is its own. -/
theorem belowRoot?_of_isBelowRoot {path : List Char} (hwalk : walk path = p.steps)
    (h : p.IsBelowRoot) : belowRoot? path = some p.path := by
  obtain ⟨habove, name, names, hnames⟩ := h
  rw [steps, habove, hnames] at hwalk
  rw [belowRoot?, hwalk, Place.path, hnames]
  rfl

theorem belowRoot?_of_not_isBelowRoot {path : List Char} (hwalk : walk path = p.steps)
    (h : ¬p.IsBelowRoot) : belowRoot? path = none := by
  rw [belowRoot?, hwalk]
  split
  · rename_i first second rest hsteps
    refine if_neg fun hfirst => h ?_
    obtain rfl := eq_of_beq hfirst
    rw [steps] at hsteps
    cases habove : p.above with
    | zero =>
      rw [habove] at hsteps
      exact ⟨habove, second, rest, hsteps⟩
    | succ n =>
      rw [habove] at hsteps
      exact absurd (List.cons.inj hsteps).1 (by decide)
  · rfl

/-- A name in characters that paths are made of. -/
structure PlainName (name : List Char) : Prop where
  isName : Path.IsName name
  slash_not_mem : '/' ∉ name
  backslash_not_mem : '\\' ∉ name
  nul_not_mem : '\x00' ∉ name

theorem plainName_of_mem_segments {path : List Char} (h : name ∈ Path.segments path)
    (hname : Path.IsName name) (hbackslash : '\\' ∉ path) (hnul : '\x00' ∉ path) : PlainName name where
  isName := hname
  slash_not_mem := Path.slash_not_mem_of_mem_segments h
  backslash_not_mem hmem := hbackslash (Path.of_mem_segments h hmem).1
  nul_not_mem hmem := hnul (Path.of_mem_segments h hmem).1

/-- Plain names and a plain path lead on by plain names. -/
theorem plainName_of_mem_follow (h : ∀ name ∈ p.names, PlainName name) {path : List Char}
    (hbackslash : '\\' ∉ path) (hnul : '\x00' ∉ path) : ∀ name ∈ (p.follow path).names, PlainName name := by
  intro name hname
  rcases of_mem_follow hname with hname | ⟨hsegment, hname⟩
  · exact h name hname
  · exact plainName_of_mem_segments hsegment hname hbackslash hnul

theorem not_mem_path {c : Char} (hslash : c ≠ '/') (h : ∀ name ∈ p.names, c ∉ name) : c ∉ p.path := by
  intro hmem
  rcases Path.mem_intercalate hmem with he | ⟨name, hname, hc⟩
  · exact hslash he
  · exact h name hname hc

/-- With the default extension the path of a place is canonical. -/
theorem canonical_path (h : ∀ name ∈ p.names, PlainName name) (hne : p.names ≠ []) :
    Path.Canonical .component (String.ofList (withExtension p.path)) := by
  have hsegments : Path.segments p.path = p.names :=
    Path.segments_intercalate hne fun name hname => (h name hname).slash_not_mem
  have hbackslash : '\\' ∉ p.path :=
    not_mem_path (by decide) fun name hname => (h name hname).backslash_not_mem
  have hnul : '\x00' ∉ p.path := not_mem_path (by decide) fun name hname => (h name hname).nul_not_mem
  refine .of_proper ?_ ?_ ?_ ?_ <;> rw [String.toList_ofList]
  · exact isName_withExtension (hsegments ▸ fun name hname => (h name hname).isName)
  · exact not_mem_withExtension hbackslash (by decide)
  · exact not_mem_withExtension hnul (by decide)
  · exact admits_withExtension _

theorem IsBelowRoot.below (h : p.IsBelowRoot) : "landing/".toList <+: p.path := by
  obtain ⟨-, name, names, hnames⟩ := h
  rw [Place.path, hnames, List.intercalate_cons_cons]
  exact List.prefix_append _ _

/-- Below the site root it stays as it is. -/
theorem IsBelowRoot.normalize?_path (h : p.IsBelowRoot) (hplain : ∀ name ∈ p.names, PlainName name) :
    Path.normalize? .component (String.ofList (withExtension p.path)) =
      some (String.ofList (withExtension p.path)) := by
  have hhead := isBlank_head_of_below (h.below.trans (prefix_withExtension p.path))
  rw [← String.toList_ofList (l := withExtension p.path)] at hhead
  obtain ⟨-, name, names, hnames⟩ := h
  exact (canonical_path hplain (hnames ▸ List.cons_ne_nil _ _)).normalize?_eq hhead

end Place

/-! ## Specifiers -/

/-- A specifier that is written without blanks around it, backslashes and NUL. -/
structure Plain (spec : String) : Prop where
  bare : Bare spec.toList
  backslash_not_mem : '\\' ∉ spec.toList
  nul_not_mem : '\x00' ∉ spec.toList

/-- Where a project specifier begins, and what is to be followed from there: the specifier itself from the
directory of the importing file, or what stands behind `@/` from the site root. -/
inductive Begins (importer spec : String) : List (List Char) → List Char → Prop where
  | beside (h : "./".toList <+: spec.toList ∨ "../".toList <+: spec.toList) :
      Begins importer spec (Path.segments importer.toList).dropLast spec.toList
  | atRoot {rest : List Char} (h : spec.toList = "@/".toList ++ rest) (hrest : rest.head? ≠ some '/') :
      Begins importer spec [Path.siteRoot.toList] rest

theorem directory_append {dir last : List Char} (hlast : '/' ∉ last) (hdir : dir.getLast? ≠ some '/') :
    directory (dir ++ '/' :: last) = dir := by
  have hbehind : ∀ c ∈ last.reverse, (c != '/') = true := fun c hc =>
    bne_iff_ne.2 fun he => hlast (he ▸ List.mem_reverse.1 hc)
  have hkept : dir.reverse.dropWhile (· == '/') = dir.reverse := by
    rw [← List.head?_reverse] at hdir
    cases hreverse : dir.reverse with
    | nil => rfl
    | cons c before =>
      rw [hreverse] at hdir
      exact List.dropWhile_cons_of_neg fun hc => hdir (congrArg some (eq_of_beq hc))
  rw [directory, List.reverse_append, List.reverse_cons, List.append_assoc,
    List.dropWhile_append_of_pos hbehind]
  exact (congrArg List.reverse hkept).trans (List.reverse_reverse _)

/-- The directory of a path is the path without its last segment. -/
theorem segments_directory {path : List Char} {init : List (List Char)} {last : List Char}
    (hnames : ∀ segment ∈ Path.segments path, Path.IsName segment)
    (h : Path.segments path = init ++ [last]) (hne : init ≠ []) :
    Path.segments (directory path) = init := by
  have hslash : ∀ name ∈ init ++ [last], '/' ∉ name := fun name hname =>
    Path.slash_not_mem_of_mem_segments (h ▸ hname)
  rw [List.forall_mem_append, List.forall_mem_singleton] at hslash
  have hpath : path = ['/'].intercalate init ++ '/' :: last := by
    rw [← Path.intercalate_concat hne, ← h, Path.intercalate_segments]
  have hend : (['/'].intercalate init).getLast? ≠ some '/' := by
    intro hlast
    obtain ⟨before, hbefore⟩ := List.getLast?_eq_some_iff.1 hlast
    refine (hnames [] (Path.nil_mem_segments ?_)).1 rfl
    rw [hpath, hbefore, List.append_assoc]
    exact ⟨before, last, by rw [List.append_assoc]; rfl⟩
  have hdirectory : directory path = ['/'].intercalate init := by
    rw [hpath]
    exact directory_append hslash.2 hend
  rw [hdirectory, Path.segments_intercalate hne hslash.1]

/-- A component below the site root has a directory. -/
theorem Sited.exists_segments {path : String} (h : Sited path) :
    ∃ init last, init ≠ [] ∧ Path.segments path.toList = init ++ [last] := by
  obtain ⟨init, last, hsegments⟩ :=
    (List.eq_nil_or_concat' _).resolve_left (Path.segments_ne_nil path.toList)
  refine ⟨init, last, ?_, hsegments⟩
  rintro rfl
  obtain ⟨below, hbelow⟩ := h.below
  have hroot : Path.segments path.toList = "landing".toList :: Path.segments below := by
    rw [← hbelow]
    exact Path.segments_append_slash "landing".toList below
  rw [hroot] at hsegments
  exact Path.segments_ne_nil below (List.cons.inj hsegments).2

/-- A specifier asks for a path whose first part names the place where it begins. -/
theorem target?_of_begins (himporter : Sited importer) {names : List (List Char)} {rest : List Char}
    (h : Begins importer spec names rest) :
    ∃ dir, target? importer.toList spec.toList = some (dir ++ '/' :: rest) ∧ Path.segments dir = names := by
  cases h with
  | beside h =>
    obtain ⟨init, last, hne, hsegments⟩ := himporter.exists_segments
    have hhead : ∃ behind, spec.toList = '.' :: behind := by
      rcases h with ⟨t, h⟩ | ⟨t, h⟩ <;> exact ⟨_, h.symm⟩
    obtain ⟨behind, hspec⟩ := hhead
    have hrelative : isAbsolute importer.toList = false := by
      obtain ⟨below, hbelow⟩ := himporter.below
      rw [← hbelow]
      rfl
    refine ⟨directory importer.toList, ?_, ?_⟩
    · rw [target?, hrelative, hspec]
      rfl
    · rw [hsegments, List.dropLast_concat, segments_directory himporter.names hsegments hne]
  | atRoot h hrest =>
    refine ⟨Path.siteRoot.toList, ?_, rfl⟩
    have hafter : after? rootAlias.toList spec.toList = some rest := by
      rw [h]
      exact after?_append _ _
    have hrelative : isAbsolute rest = false := beq_eq_false_iff_ne.2 hrest
    rw [target?, hafter]
    simp only [hrelative]
    rfl

theorem plainName_of_begins (himporter : Sited importer) {names : List (List Char)} {rest : List Char}
    (h : Begins importer spec names rest) : ∀ name ∈ names, Place.PlainName name := by
  cases h with
  | beside h =>
    intro name hname
    have hsegment := List.mem_of_mem_dropLast hname
    exact Place.plainName_of_mem_segments hsegment (himporter.names name hsegment)
      himporter.backslash_not_mem himporter.nul_not_mem
  | atRoot h hrest =>
    refine List.forall_mem_singleton.2 ⟨?_, by decide, by decide, by decide⟩
    exact ⟨by decide, by decide, by decide⟩

/-- What is to be followed stands in the specifier. -/
theorem suffix_of_begins {names : List (List Char)} {rest : List Char}
    (h : Begins importer spec names rest) : rest <:+ spec.toList := by
  cases h with
  | beside h => exact List.suffix_rfl
  | atRoot h hrest => exact h ▸ List.suffix_append _ _

/-- Whatever a specifier leads to is a component below the site root, in canonical form. From such a file, a
plain specifier of the project is followed step by step: where the steps end below the site root it leads
to that path, with the default extension if there is none, and elsewhere it leads nowhere. -/
theorem resolve?_confined (importer spec : String) :
    (∀ path, resolve? importer spec = some path → Sited path) ∧
    (Sited importer → Plain spec → ∀ names rest, Begins importer spec names rest →
      let place := Place.follow { names } rest
      (resolve? importer spec = none ↔ ¬place.IsBelowRoot) ∧
        (place.IsBelowRoot →
          resolve? importer spec = some (String.ofList (withExtension place.path)))) := by
  refine ⟨fun path h => sited_of_resolve? h, ?_⟩
  intro himporter hspec names rest hbegins place
  obtain ⟨dir, htarget, hdir⟩ := target?_of_begins himporter hbegins
  have hstart := plainName_of_begins himporter hbegins
  have hrest := (suffix_of_begins hbegins).subset
  have hplain : ∀ name ∈ place.names, Place.PlainName name :=
    Place.plainName_of_mem_follow hstart (fun hmem => hspec.backslash_not_mem (hrest hmem))
      fun hmem => hspec.nul_not_mem (hrest hmem)
  have hwalk : walk (dir ++ '/' :: rest) = place.steps := by
    subst hdir
    exact Place.walk_append_slash (fun name hname => (hstart name hname).isName) rest
  have hresolve : resolve? importer spec = (belowRoot? (dir ++ '/' :: rest)).bind fun path =>
      Path.normalize? .component (String.ofList (withExtension path)) := by
    rw [resolve?, hspec.bare.trim_eq, htarget]
    rfl
  have hinside : place.IsBelowRoot →
      resolve? importer spec = some (String.ofList (withExtension place.path)) := by
    intro hbelow
    rw [hresolve, Place.belowRoot?_of_isBelowRoot hwalk hbelow, Option.bind_some]
    exact hbelow.normalize?_path hplain
  have houtside : ¬place.IsBelowRoot → resolve? importer spec = none := by
    intro hbelow
    rw [hresolve, Place.belowRoot?_of_not_isBelowRoot hwalk hbelow]
    rfl
  refine ⟨⟨fun hnone hbelow => ?_, houtside⟩, hinside⟩
  cases hnone.symm.trans (hinside hbelow)

/-- A specifier that leads out of the site and back, and one that leads out of the project. -/
theorem resolve?_confined_outAndBack :
    let importer := "landing/pages/about.tsx"
    let start := ["landing".toList, "pages".toList]
    Sited importer ∧ Plain "../../landing/./sections//Hero" ∧ Plain "../../../landing/Hero" ∧
      Begins importer "../../landing/./sections//Hero" start "../../landing/./sections//Hero".toList ∧
      Begins importer "../../../landing/Hero" start "../../../landing/Hero".toList ∧
      resolve? importer "../../landing/./sections//Hero" = some "landing/sections/Hero.tsx" ∧
      resolve? importer "../../../landing/Hero" = none := by
  intro importer start
  have himporter : Sited importer :=
    (resolve?_confined "landing/index.tsx" "./pages/about").1 importer (by decide +kernel)
  have hback : Plain "../../landing/./sections//Hero" :=
    ⟨bare_iff_trim_eq.2 (by decide +kernel), by decide, by decide⟩
  have hout : Plain "../../../landing/Hero" :=
    ⟨bare_iff_trim_eq.2 (by decide +kernel), by decide, by decide⟩
  have hstart : (Path.segments importer.toList).dropLast = start := by decide +kernel
  have hbegins : ∀ spec, "../".toList <+: spec.toList → Begins importer spec start spec.toList :=
    fun spec h => hstart ▸ .beside (.inr h)
  have hbegins₁ := hbegins "../../landing/./sections//Hero" (by decide)
  have hbegins₂ := hbegins "../../../landing/Hero" (by decide)
  obtain ⟨-, hinside⟩ := (resolve?_confined _ _).2 himporter hback _ _ hbegins₁
  obtain ⟨houtside, -⟩ := (resolve?_confined _ _).2 himporter hout _ _ hbegins₂
  refine ⟨himporter, hback, hout, hbegins₁, hbegins₂, ?_, houtside.2 ?_⟩
  · rw [hinside ⟨by decide, "sections".toList, ["Hero".toList], by decide⟩]
    decide +kernel
  · exact fun h => absurd h.1 (by decide)

end Imports

end VersionedSite
