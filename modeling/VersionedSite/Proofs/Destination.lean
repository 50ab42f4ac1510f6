import VersionedSite.Destination
import VersionedSite.Proofs.Markup.Validation
import VersionedSite.Proofs.Path

/-!
# Files that fit their destinations

What content that has been accepted for a destination is like (`fit_of_accept`): it stands at a
canonical path, is not empty, has no blank at an end and passes the check that the path's family and
role ask for.

Resolving a destination and bringing its spelling into canonical form for a family never disagree, although
the one looks for the extension in the spelling and the other in the tidied path (`resolve_iff_normalize?`).

Who asks for a file by the path that it was stored at is led to that path, unless the path begins with a
blank (`normalize?_and_resolve_iff`). Such paths are stored, since only what is in front of a leading `./`
is trimmed (`normalize?_of_blank_behind`).
-/

namespace VersionedSite.Destination

open Text Markup

/-- Whether a text passes the check of a family for a structure. -/
def Passes (read : OutlineReader) (code : List Char) : PathMode → Structure → Prop
  | .document, structure_ => defectsOf read code structure_ = []
  | .component, .fragment => anywhere rootElement? code = false
  | .component, .document => exportsDefault none code = true

/-- Whether a content is fit to stand at a path. -/
structure Fit (read : OutlineReader) (path content : String) : Prop where
  ne_empty : content ≠ ""
  bare : Bare content.toList
  passes : ∃ mode, Path.Canonical mode path ∧
    Passes read content.toList mode (structureFor (.ofPath path))

variable {read : OutlineReader} {content : String} {mode : PathMode} {role : Role} {limit : Int}

theorem fit_of_validate (hread : read.VacantAtNil) {v : Validation}
    (hv : validate read content mode role limit = v) (h : v.isValid = true) :
    v.code ≠ [] ∧ Bare v.code ∧ Passes read v.code mode (structureFor role) := by
  cases mode with
  | document => exact validateMarkup_fit hread hv h
  | component =>
    obtain ⟨hne, hbare, hnone⟩ := validateComponent_fit hv h
    refine ⟨hne, hbare, ?_⟩
    have hpasses := (componentDefects_eq_nil.1 hnone).2
    cases hs : structureFor role <;> rw [hs] at hpasses <;> exact hpasses

theorem fit_of_accept (hread : read.VacantAtNil) {raw : String} {d : Destination} {a : Accepted}
    (hd : resolve raw = .ok d) (ha : accept read d content limit = .ok a) :
    Fit read a.path a.content := by
  unfold accept at ha
  dsimp only at ha
  split at ha <;> cases ha
  rename_i hvalid
  obtain ⟨hne, hbare, hpasses⟩ := fit_of_validate hread rfl hvalid
  refine ⟨fun he => hne ?_, ?_, d.mode, .of_normalize? (resolve_eq_ok.1 hd).2, ?_⟩
  · simpa using congrArg String.toList he
  · rw [String.toList_ofList]
    exact hbare
  · rw [String.toList_ofList]
    exact hpasses

/-! ## Resolving -/

theorem resolve_eq_ok_iff {raw : String} {d : Destination} :
    resolve raw = .ok d ↔ Path.normalize? d.mode raw = some d.path := by
  rw [resolve_eq_ok, and_iff_right_iff_imp]
  intro h
  obtain ⟨-, ha⟩ := Path.normalize?_eq_some.1 h
  rw [Path.admissible, Bool.and_eq_true] at ha
  exact Path.infer?_of_admits_tidy ha.2

theorem resolve_eq_error {raw : String} {e : SiteError} (h : resolve raw = .error e) :
    e = .invalidDestination (.ofChars raw.toList) := by
  unfold resolve at h
  split at h <;> cases h
  rfl

theorem resolve_eq_error_iff {raw : String} {e : SiteError} :
    resolve raw = .error e ↔
      e = .invalidDestination (.ofChars raw.toList) ∧ ∀ mode, Path.normalize? mode raw = none := by
  constructor
  · refine fun h => ⟨resolve_eq_error h, fun mode => Option.eq_none_iff_forall_ne_some.2 fun path hp => ?_⟩
    have hok : resolve raw = .ok { path, mode } := resolve_eq_ok_iff.2 hp
    cases h.symm.trans hok
  · rintro ⟨rfl, hnone⟩
    cases h : resolve raw with
    | ok d => cases (hnone d.mode).symm.trans (resolve_eq_ok_iff.1 h)
    | error e => rw [resolve_eq_error h]

/-- What a destination is resolved to is its canonical form for the one family that has one, which is told by
the spelling and by the path alike; a destination is refused if neither family has one. A spelling
without blanks at its ends that is canonical is kept as it is. -/
theorem resolve_iff_normalize? (raw : String) :
    (∀ d : Destination, resolve raw = .ok d ↔ Path.normalize? d.mode raw = some d.path) ∧
    (∀ e, resolve raw = .error e ↔
      e = .invalidDestination (.ofChars raw.toList) ∧ ∀ mode, Path.normalize? mode raw = none) ∧
    (∀ mode path, Path.normalize? mode raw = some path →
      (∀ other path', Path.normalize? other raw = some path' → other = mode) ∧
      PathMode.infer? raw = some mode ∧ PathMode.infer? path = some mode ∧
      Path.Canonical mode path) ∧
    (Bare raw.toList → ∀ mode, (∀ segment ∈ Path.segments raw.toList, Path.IsName segment) →
      '\\' ∉ raw.toList → '\x00' ∉ raw.toList → mode.admits raw.toList = true →
      resolve raw = .ok { path := raw, mode }) := by
  have hinfer : ∀ mode path, Path.normalize? mode raw = some path → PathMode.infer? raw = some mode :=
    fun mode path h => (resolve_eq_ok.1 (resolve_eq_ok_iff.2 h : resolve raw = .ok { path, mode })).1
  refine ⟨fun d => resolve_eq_ok_iff, fun e => resolve_eq_error_iff, fun mode path h => ?_, ?_⟩
  · refine ⟨fun other path' h' => ?_, hinfer mode path h, ?_⟩
    · exact Option.some.inj ((hinfer other path' h').symm.trans (hinfer mode path h))
    · exact ⟨(Path.Canonical.of_normalize? h).infer?_eq, Path.Canonical.of_normalize? h⟩
  · intro hbare mode hnames hbackslash hnul hadmits
    have hcanonical := Path.Canonical.of_proper hnames hbackslash hnul hadmits
    exact resolve_eq_ok_iff.2 (hcanonical.normalize?_eq hbare.head)

/-- A spelling with a backslash, a doubled slash and capitals, and the path that it stands for. -/
theorem resolve_iff_normalize?_capitals :
    (resolve " .\\pages//Über.HTML\t" = .ok { path := "pages/Über.HTML", mode := .document } ∧
      PathMode.infer? " .\\pages//Über.HTML\t" = some .document ∧
      Path.Canonical .document "pages/Über.HTML") ∧
    resolve "pages/Über.HTML" = .ok { path := "pages/Über.HTML", mode := .document } := by
  have h : Path.normalize? .document " .\\pages//Über.HTML\t" = some "pages/Über.HTML" := by
    decide +kernel
  obtain ⟨hok, -, hsome, -⟩ := resolve_iff_normalize? " .\\pages//Über.HTML\t"
  obtain ⟨-, hraw, -, hcanonical⟩ := hsome .document _ h
  have hbare : Bare "pages/Über.HTML".toList := bare_iff_trim_eq.2 (by decide +kernel)
  have hself := (resolve_iff_normalize? "pages/Über.HTML").2.2.2 hbare .document hcanonical.proper
    hcanonical.backslash_not_mem hcanonical.nul_not_mem hcanonical.admits
  exact ⟨⟨(hok { path := "pages/Über.HTML", mode := .document }).2 h, hraw, hcanonical⟩, hself⟩

/-! ## Asking for what is stored -/

/-- Bringing a canonical path into canonical form again, and resolving it as a destination, leave it as
it is exactly if it does not begin with a blank. -/
theorem normalize?_and_resolve_iff {raw path : String} (h : Path.normalize? mode raw = some path) :
    (Path.normalize? mode path = some path ↔ ∀ c, path.toList.head? = some c → isBlank c = false) ∧
      (resolve path = .ok { path, mode } ↔
        ∀ c, path.toList.head? = some c → isBlank c = false) := by
  have hself := Path.normalize?_eq_self_iff h
  refine ⟨hself, ?_⟩
  rw [resolve_eq_ok, ← hself]
  exact and_iff_right (Path.Canonical.of_normalize? h).infer?_eq

theorem normalize?_and_resolve_backslashes :
    Path.normalize? .component " .//sections\\\\Hero.tsx" = some "sections/Hero.tsx" ∧
      Path.normalize? .component "sections/Hero.tsx" = some "sections/Hero.tsx" ∧
      resolve "sections/Hero.tsx" = .ok { path := "sections/Hero.tsx", mode := .component } := by
  have h : Path.normalize? .component " .//sections\\\\Hero.tsx" = some "sections/Hero.tsx" := by
    decide +kernel
  have hplain : ∀ c, "sections/Hero.tsx".toList.head? = some c → isBlank c = false := by
    rintro c ⟨⟩
    decide
  obtain ⟨hself, hresolve⟩ := normalize?_and_resolve_iff h
  exact ⟨h, hself.2 hplain, hresolve.2 hplain⟩

/-- What stands behind a leading `./` is not trimmed at first. -/
theorem normalize?_of_blank_behind :
    Path.normalize? .document "./ pages/home.html" = some " pages/home.html" ∧
      Path.normalize? .document " pages/home.html" ≠ some " pages/home.html" := by
  decide +kernel

end VersionedSite.Destination
