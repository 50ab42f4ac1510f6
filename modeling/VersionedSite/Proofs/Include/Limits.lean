import VersionedSite.Proofs.Include.Evaluation

/-!
# What limits on includes do

The limits keep a composition short, whatever is stored (`compose_reads`): the number of includes bounds
what is read, and their depth how far apart two contents of a chain are. Where neither is reached they
leave no trace, and raising or dropping them changes nothing (`compose_of_limits_le`).

* `Yields.includes_le`: includes are followed up to the limit only.
* `Yields.proper`, `Yields.chained`: which paths are read, and at the end of which chain.
* `Yields.of_below`: work that reaches no limit, under higher ones.
-/

namespace VersionedSite.Include

variable {contents : Contents} {caps : Caps} {work : Work} {p : Pass} {r : List Char × Pass}
  {visits : List Visit} {limits : Limits} {project entry : String} {revision : Int} {d : Option Document}

/-! ## What is read -/

/-- Includes are followed up to the limit only. -/
theorem Yields.includes_le (h : Yields contents caps work p r visits) {limit bound : Int}
    (hlimit : caps.includes = some limit) (hbound : limit ≤ bound)
    (hp : p.progress.includes ≤ bound) : r.2.progress.includes ≤ bound := by
  induction h with
  | deep | spent | refused | circular | finished => exact hp
  | shallow _ _ ih | character _ ih => exact ih hp
  | replaced _ _ ihd ih => exact ih (ihd hp)
  | missing hfollows => exact Int.le_trans (hfollows limit hlimit) hbound
  | included hfollows _ _ _ _ ih => exact ih (Int.le_trans (hfollows limit hlimit) hbound)

/-- Whether work is inside contents that are looked into. -/
def Work.IsEntered (caps : Caps) : Work → Prop
  | content .. => True
  | pieces _ depth _ => caps.Enters depth
  | directive _ depth _ => caps.Enters depth

/-- The paths whose contents are open where the work is. -/
def Work.chain : Work → List String
  | content chain .. => chain
  | pieces chain .. => chain
  | directive chain .. => chain

/-- The number of includes above the work. -/
def Work.depth : Work → Nat
  | content _ depth _ => depth
  | pieces _ depth _ => depth
  | directive _ depth _ => depth

/-- What is promised of a path that is read for work at the end of a chain. -/
structure Visit.Proper (caps : Caps) (p : Pass) (chain : List String) (v : Visit) : Prop where
  project_eq : v.project = p.project
  revision_eq : v.revision = p.revision
  normalized : ∃ written, Path.normalize? .document written = some v.path
  path_not_mem : v.path ∉ v.chain
  chain_isPrefix : chain <+: v.chain
  length_le : ∀ limit, caps.depth = some limit → (v.chain.length : Int) ≤ limit + 1

theorem Visit.Proper.mono {q : Pass} {chain chain' : List String} {v : Visit}
    (h : v.Proper caps q chain') (hq : p.Leads q visits) (hchain : chain <+: chain') :
    v.Proper caps p chain :=
  { h with
    project_eq := h.project_eq.trans hq.project_eq
    revision_eq := h.revision_eq.trans hq.revision_eq
    chain_isPrefix := hchain.trans h.chain_isPrefix }

theorem Pass.proper_visit {chain : List String} {depth : Nat} {written path : String}
    (p : Pass) (hentered : caps.Enters depth) (hchain : chain.length = depth + 1)
    (hpath : Path.normalize? .document written = some path) (hnew : path ∉ chain) :
    (p.visit path chain).Proper caps p chain where
  project_eq := rfl
  revision_eq := rfl
  normalized := ⟨written, hpath⟩
  path_not_mem := hnew
  chain_isPrefix := List.prefix_rfl
  length_le limit hlimit := by
    have hle := hentered limit hlimit
    show (chain.length : Int) ≤ limit + 1
    omega

/-- Paths are read in proper form, as long as the chain is as long as the depth says. -/
theorem Yields.proper (h : Yields contents caps work p r visits) (hentered : work.IsEntered caps)
    (hchain : work.chain.length = work.depth + 1) : ∀ v ∈ visits, v.Proper caps p work.chain := by
  induction h with
  | deep | spent | refused | circular | finished => simp
  | shallow hdepth _ ih => exact ih hdepth hchain
  | character _ ih => exact ih hentered hchain
  | replaced hd _ ihd ih =>
    intro v hv
    rcases List.mem_append.1 hv with hv | hv
    · exact ihd hentered hchain v hv
    · exact (ih hentered hchain v hv).mono hd.leads List.prefix_rfl
  | missing _ hpath hnew =>
    intro v hv
    rw [List.mem_singleton.1 hv]
    exact Pass.proper_visit _ hentered hchain hpath hnew
  | @included chain depth d p path content r visits _ hpath hnew _ _ ih =>
    intro v hv
    rcases List.mem_cons.1 hv with rfl | hv
    · exact Pass.proper_visit _ hentered hchain hpath hnew
    · have hlonger : (chain ++ [path]).length = depth + 1 + 1 := by
        rw [List.length_append, show chain.length = depth + 1 from hchain]
        rfl
      exact (ih trivial hlonger v hv).mono (Pass.Leads.following p path chain) (List.prefix_append _ _)

/-- A path is read at the end of the chain, or of that of another path that is read. -/
theorem Yields.chained (h : Yields contents caps work p r visits) :
    ∀ v ∈ visits, v.chain = work.chain ∨ ∃ w ∈ visits, v.chain = w.chain ++ [w.path] := by
  induction h with
  | deep | spent | refused | circular | finished => simp
  | shallow _ _ ih | character _ ih => exact ih
  | replaced _ _ ihd ih =>
    intro v hv
    rcases List.mem_append.1 hv with hv | hv
    · exact (ihd v hv).imp_right fun ⟨w, hw, he⟩ => ⟨w, List.mem_append_left _ hw, he⟩
    · exact (ih v hv).imp_right fun ⟨w, hw, he⟩ => ⟨w, List.mem_append_right _ hw, he⟩
  | missing =>
    intro v hv
    exact .inl (congrArg Visit.chain (List.mem_singleton.1 hv))
  | @included chain _ _ p path _ _ _ _ _ _ _ _ ih =>
    intro v hv
    rcases List.mem_cons.1 hv with rfl | hv
    · exact .inl rfl
    · rcases ih v hv with he | ⟨w, hw, he⟩
      · exact .inr ⟨p.visit path chain, List.mem_cons_self, he⟩
      · exact .inr ⟨w, List.mem_cons_of_mem _ hw, he⟩

/-- Whatever is stored and whatever the limits, composing comes to an end, and what is computed is the one
thing it can yield. It reads the entry and then at most as many paths as includes are allowed, all of the
project at the one revision. Each of these paths is canonical, is read at the end of the chain of one that
was read before, does not stand on that chain, and is at most one include beyond the depth limit. -/
theorem compose_reads (contents : Contents) (project : String) (revision : Int) (entry : String)
    (limits : Limits) :
    let outcome := compose (contents.reader project revision) revision entry limits
    ∃ visits,
      (∀ d visits', Composes contents limits.caps project revision entry d visits' ↔
        d = outcome.document ∧ visits' = visits) ∧
      outcome.reads = visits.map Visit.path ∧
      (visits.length : Int) ≤ 1 + max 0 limits.includes ∧
      (∀ v ∈ visits, v.project = project ∧ v.revision = revision) ∧
      ∃ later, visits = { project, path := entry, revision, chain := [] } :: later ∧
        ∀ v ∈ later,
          (∃ written, Path.normalize? .document written = some v.path) ∧
          v.path ∉ v.chain ∧
          (∃ w ∈ visits, v.chain = w.chain ++ [w.path]) ∧
          ∃ trail, v.chain = entry :: trail ∧
            ((trail ++ [v.path]).length : Int) ≤ max 0 (limits.depth + 1) := by
  intro outcome
  obtain ⟨visits, hcomposes, hreads⟩ := exists_composes contents project revision entry limits
  have hall : ∀ d visits', Composes contents limits.caps project revision entry d visits' ↔
      d = outcome.document ∧ visits' = visits := by
    refine fun d visits' => ⟨fun h => h.unique hcomposes, ?_⟩
    rintro ⟨rfl, rfl⟩
    exact hcomposes
  refine ⟨visits, hall, hreads, ?_⟩
  generalize outcome.document = d at hcomposes
  cases hcomposes with
  | noEntry =>
    refine ⟨?_, by simp, [], rfl, by simp⟩
    rw [List.length_singleton]
    omega
  | @entry content out q later hentry h =>
    have hleads := h.leads
    have hproper := h.proper trivial rfl
    refine ⟨?_, ?_, later, rfl, fun v hv => ⟨?_, ?_, ?_, ?_⟩⟩
    · have hcount := hleads.includes_eq
      have hle := h.includes_le rfl (Int.le_max_right 0 limits.includes) (Int.le_max_left 0 limits.includes)
      dsimp only at hcount hle
      rw [hcount] at hle
      rw [List.length_cons]
      omega
    · intro v hv
      rcases List.mem_cons.1 hv with rfl | hv
      · exact ⟨rfl, rfl⟩
      · exact ⟨(hproper v hv).project_eq, (hproper v hv).revision_eq⟩
    · exact (hproper v hv).normalized
    · exact (hproper v hv).path_not_mem
    · rcases h.chained v hv with he | ⟨w, hw, he⟩
      · exact ⟨_, List.mem_cons_self, he⟩
      · exact ⟨w, List.mem_cons_of_mem _ hw, he⟩
    · obtain ⟨trail, htrail⟩ := (hproper v hv).chain_isPrefix
      refine ⟨trail, htrail.symm, ?_⟩
      have hle := (hproper v hv).length_le _ rfl
      rw [← htrail] at hle
      simp [Work.chain] at hle ⊢
      omega

/-! ## Higher limits -/

namespace Caps

/-- Whether limits are nowhere above others. -/
structure Below (caps caps' : Caps) : Prop where
  depth : ∀ limit', caps'.depth = some limit' → ∃ limit, caps.depth = some limit ∧ limit ≤ limit'
  includes : ∀ limit', caps'.includes = some limit' →
    ∃ limit, caps.includes = some limit ∧ limit ≤ limit'

variable {caps' : Caps}

theorem Enters.of_below {depth : Nat} (h : caps.Enters depth) (hb : caps.Below caps') :
    caps'.Enters depth := by
  intro limit' hlimit'
  obtain ⟨limit, hlimit, hle⟩ := hb.depth limit' hlimit'
  exact Int.le_trans (h limit hlimit) hle

theorem Follows.of_below {includes : Nat} (h : caps.Follows includes) (hb : caps.Below caps') :
    caps'.Follows includes := by
  intro limit' hlimit'
  obtain ⟨limit, hlimit, hle⟩ := hb.includes limit' hlimit'
  exact Int.lt_of_lt_of_le (h limit hlimit) hle

theorem below_unlimited (caps : Caps) : caps.Below unlimited where
  depth _ h := nomatch h
  includes _ h := nomatch h

end Caps

theorem Limits.below_caps {limits limits' : Limits} (hdepth : limits.depth ≤ limits'.depth)
    (hincludes : limits.includes ≤ limits'.includes) : limits.caps.Below limits'.caps where
  depth := by
    rintro limit' ⟨⟩
    exact ⟨_, rfl, hdepth⟩
  includes := by
    rintro limit' ⟨⟩
    exact ⟨_, rfl, hincludes⟩

/-- Whether no limit was reached. -/
structure Progress.Clear (caps : Caps) (p : Progress) : Prop where
  depth : ∀ limit, caps.depth = some limit → .depthReached limit ∉ p.complaints
  includes : ∀ limit, caps.includes = some limit → .includesReached limit ∉ p.complaints

theorem Progress.Clear.of_leads {q : Pass} (h : q.progress.Clear caps) (hp : p.Leads q visits) :
    p.progress.Clear caps where
  depth limit hlimit hc := h.depth limit hlimit (hp.complaints_subset hc)
  includes limit hlimit hc := h.includes limit hlimit (hp.complaints_subset hc)

theorem Progress.mem_complain (p : Progress) (c : Complaint) : c ∈ (p.complain c).complaints :=
  mem_addNew.2 (.inr List.mem_cons_self)

/-- Work that reaches no limit yields the same under higher limits. -/
theorem Yields.of_below {caps' : Caps} (h : Yields contents caps work p r visits)
    (hb : caps.Below caps') (hclear : r.2.progress.Clear caps) :
    Yields contents caps' work p r visits := by
  induction h with
  | deep hlimit => exact absurd (Progress.mem_complain _ _) (hclear.depth _ hlimit)
  | shallow hdepth _ ih => exact .shallow (hdepth.of_below hb) (ih hclear)
  | finished => exact .finished
  | character _ ih => exact .character (ih hclear)
  | replaced _ h ihd ih => exact .replaced (ihd (hclear.of_leads h.leads)) (ih hclear)
  | spent hlimit => exact absurd (Progress.mem_complain _ _) (hclear.includes _ hlimit)
  | refused hf hpath => exact .refused (hf.of_below hb) hpath
  | circular hf hpath hchain => exact .circular (hf.of_below hb) hpath hchain
  | missing hf hpath hchain hread => exact .missing (hf.of_below hb) hpath hchain hread
  | included hf hpath hchain hread _ ih =>
    exact .included (hf.of_below hb) hpath hchain hread (ih hclear)

theorem Composes.of_below {caps' : Caps} (h : Composes contents caps project revision entry d visits)
    (hb : caps.Below caps')
    (hclear : ∀ document, d = some document →
      (∀ limit, caps.depth = some limit → (Complaint.depthReached limit).message ∉ document.warnings) ∧
      (∀ limit, caps.includes = some limit →
        (Complaint.includesReached limit).message ∉ document.warnings)) :
    Composes contents caps' project revision entry d visits := by
  cases h with
  | noEntry hentry => exact .noEntry hentry
  | entry hentry h =>
    obtain ⟨hdepth, hincludes⟩ := hclear _ rfl
    refine .entry hentry (h.of_below hb ⟨fun limit hlimit hc => ?_, fun limit hlimit hc => ?_⟩)
    · exact hdepth limit hlimit (List.mem_map_of_mem hc)
    · exact hincludes limit hlimit (List.mem_map_of_mem hc)

/-- A composition that warns of neither limit yields the same document over the same reads when either limit
is raised, and the same again when there are no limits at all. -/
theorem compose_of_limits_le (contents : Contents) (project : String) (revision : Int) (entry : String)
    {limits limits' : Limits} (hdepth : limits.depth ≤ limits'.depth)
    (hincludes : limits.includes ≤ limits'.includes)
    (hclear : ∀ d,
      (compose (contents.reader project revision) revision entry limits).document = some d →
        (Complaint.depthReached limits.depth).message ∉ d.warnings ∧
          (Complaint.includesReached limits.includes).message ∉ d.warnings) :
    let outcome := compose (contents.reader project revision) revision entry limits
    compose (contents.reader project revision) revision entry limits' = outcome ∧
      ∃ visits, outcome.reads = visits.map Visit.path ∧
        ∀ d visits', Composes contents .unlimited project revision entry d visits' ↔
          d = outcome.document ∧ visits' = visits := by
  intro outcome
  obtain ⟨visits, hcomposes, hreads⟩ := exists_composes contents project revision entry limits
  obtain ⟨visits', hcomposes', hreads'⟩ := exists_composes contents project revision entry limits'
  have hraised : ∀ caps', limits.caps.Below caps' →
      Composes contents caps' project revision entry outcome.document visits := by
    refine fun caps' hb => hcomposes.of_below hb fun d hd => ?_
    constructor
    · rintro limit ⟨⟩
      exact (hclear d hd).1
    · rintro limit ⟨⟩
      exact (hclear d hd).2
  constructor
  · obtain ⟨hdocument, rfl⟩ := hcomposes'.unique (hraised _ (Limits.below_caps hdepth hincludes))
    exact congrArg₂ Outcome.mk hdocument (hreads'.trans hreads.symm)
  · have hunlimited := hraised _ (Caps.below_unlimited _)
    refine ⟨visits, hreads, fun d visits' => ⟨fun h => h.unique hunlimited, ?_⟩⟩
    rintro ⟨rfl, rfl⟩
    exact hunlimited

/-- Contents that include each other. -/
def entwined : Contents := fun _ path _ =>
  match path with
  | "pages/home.html" => some "<!--include:a.html--> <!--include:b.html-->"
  | "a.html" => some "A<!--include:b.html-->"
  | "b.html" => some "B<!--include:a.html-->"
  | _ => none

/-- Four includes, two of them below others, reach no limit. -/
theorem compose_of_limits_le_entwined :
    let low : Limits := { depth := 2, includes := 5 }
    let outcome := compose (entwined.reader "shop" 1) 1 "pages/home.html" low
    (low.depth ≤ ({} : Limits).depth ∧ low.includes ≤ ({} : Limits).includes ∧
      ∀ d, outcome.document = some d →
        (Complaint.depthReached low.depth).message ∉ d.warnings ∧
          (Complaint.includesReached low.includes).message ∉ d.warnings) ∧
    outcome.reads = ["pages/home.html", "a.html", "b.html", "b.html", "a.html"] ∧
    outcome.document.map Document.content =
      some ("AB" ++ circularPlaceholder "a.html" ++ " BA" ++ circularPlaceholder "b.html") ∧
    compose (entwined.reader "shop" 1) 1 "pages/home.html" {} = outcome ∧
      ∃ visits, outcome.reads = visits.map Visit.path ∧
        ∀ d visits', Composes entwined .unlimited "shop" 1 "pages/home.html" d visits' ↔
          d = outcome.document ∧ visits' = visits := by
  intro low outcome
  have hwarnings : outcome.document.map Document.warnings =
      some ["Circular include: a.html", "Circular include: b.html"] := by decide +kernel
  have hclear : ∀ d, outcome.document = some d →
      (Complaint.depthReached low.depth).message ∉ d.warnings ∧
        (Complaint.includesReached low.includes).message ∉ d.warnings := by
    intro d hd
    rw [hd] at hwarnings
    rw [Option.some.inj hwarnings]
    decide +kernel
  have hdepth : low.depth ≤ ({} : Limits).depth := by decide
  have hincludes : low.includes ≤ ({} : Limits).includes := by decide
  exact ⟨⟨hdepth, hincludes, hclear⟩, by decide +kernel, by decide +kernel,
    compose_of_limits_le entwined "shop" 1 "pages/home.html" hdepth hincludes hclear⟩

end VersionedSite.Include
