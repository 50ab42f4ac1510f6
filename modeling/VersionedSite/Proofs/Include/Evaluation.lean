import VersionedSite.Proofs.Include.Replacement

/-!
# Composing without an end in sight

What composing yields can be said by rules alone (`Yields`, `Composes`): each looks at one content, piece
or directive and leaves open how long it goes on, and both limits may be missing. The paths that are read
are written down in order, each with the chain of contents that it is read for.

* `Yields.unique`, `Composes.unique`: the rules settle everything.
* `exists_composes`: under limits they come to an end, whatever is stored, and yield what is computed.
* `Yields.leads`: what each reading adds on the way.
-/

namespace VersionedSite.Include

open Text

/-! ## What is composed, and what it takes -/

/-- The contents of the paths of projects at revisions. -/
abbrev Contents := (project path : String) → (revision : Int) → Option String

/-- The contents of a project at one revision. -/
def Contents.reader (contents : Contents) (project : String) (revision : Int) : Reader :=
  fun path => contents project path revision

/-- Limits either of which may be missing. -/
structure Caps where
  depth : Option Int
  includes : Option Int

/-- Limits neither of which is missing. -/
def Limits.caps (limits : Limits) : Caps :=
  { depth := some limits.depth, includes := some limits.includes }

namespace Caps

/-- No limits. -/
def unlimited : Caps := { depth := none, includes := none }

/-- Whether a content below so many includes is looked into. -/
def Enters (caps : Caps) (depth : Nat) : Prop := ∀ limit, caps.depth = some limit → depth ≤ limit

/-- Whether one more include is followed behind so many. -/
def Follows (caps : Caps) (includes : Nat) : Prop :=
  ∀ limit, caps.includes = some limit → includes < limit

end Caps

/-- What the parts of one composition share. -/
structure Pass where
  project : String
  revision : Int
  progress : Progress

namespace Pass

/-- One more complaint, unless it was made before. -/
def complain (p : Pass) (c : Complaint) : Pass := { p with progress := p.progress.complain c }

/-- One more include that is followed. -/
def following (p : Pass) (path : String) : Pass := { p with progress := p.progress.following path }

/-- What is stored at a path, if there is any content. -/
def content? (p : Pass) (contents : Contents) (path : String) : Option String :=
  (contents.reader p.project p.revision).content? path

end Pass

/-- A path that is read, for a directive in the content of the last path of `chain`. -/
structure Visit where
  project : String
  path : String
  revision : Int
  /-- The paths whose contents are being expanded, from the entry on. -/
  chain : List String
  deriving DecidableEq

/-- The reading of a path in the course of a composition. -/
def Pass.visit (p : Pass) (path : String) (chain : List String) : Visit :=
  { project := p.project, path, revision := p.revision, chain }

/-- What there is to do inside the last path of `chain`, below so many includes. -/
inductive Work where
  | content (chain : List String) (depth : Nat) (text : List Char)
  | pieces (chain : List String) (depth : Nat) (rest : List (Piece Directive))
  | directive (chain : List String) (depth : Nat) (d : Directive)

/-- What some work yields, with the paths that are read for it. No rule tells how long it takes. -/
inductive Yields (contents : Contents) (caps : Caps) :
    Work → Pass → List Char × Pass → List Visit → Prop where
  | deep {chain : List String} {depth : Nat} {text : List Char} {p : Pass} {limit : Int}
      (hlimit : caps.depth = some limit) (h : limit < depth) :
      Yields contents caps (.content chain depth text) p (text, p.complain (.depthReached limit)) []
  | shallow {chain : List String} {depth : Nat} {text : List Char} {p : Pass}
      {r : List Char × Pass} {visits : List Visit}
      (h : caps.Enters depth)
      (hpieces : Yields contents caps (.pieces chain depth (scan directive? text)) p r visits) :
      Yields contents caps (.content chain depth text) p r visits
  | finished {chain : List String} {depth : Nat} {p : Pass} :
      Yields contents caps (.pieces chain depth []) p ([], p) []
  | character {chain : List String} {depth : Nat} {c : Char} {rest : List (Piece Directive)}
      {p q : Pass} {out : List Char} {visits : List Visit}
      (h : Yields contents caps (.pieces chain depth rest) p (out, q) visits) :
      Yields contents caps (.pieces chain depth (.char c :: rest)) p (c :: out, q) visits
  | replaced {chain : List String} {depth : Nat} {d : Directive} {rest : List (Piece Directive)}
      {p p' q : Pass} {text out : List Char} {visits visits' : List Visit}
      (hd : Yields contents caps (.directive chain depth d) p (text, p') visits)
      (h : Yields contents caps (.pieces chain depth rest) p' (out, q) visits') :
      Yields contents caps (.pieces chain depth (.hit d :: rest)) p (text ++ out, q) (visits ++ visits')
  | spent {chain : List String} {depth : Nat} {d : Directive} {p : Pass} {limit : Int}
      (hlimit : caps.includes = some limit) (h : limit ≤ p.progress.includes) :
      Yields contents caps (.directive chain depth d) p (d.text, p.complain (.includesReached limit)) []
  | refused {chain : List String} {depth : Nat} {d : Directive} {p : Pass}
      (h : caps.Follows p.progress.includes)
      (hpath : Path.normalize? .document (String.ofList d.path) = none) :
      Yields contents caps (.directive chain depth d) p
        ((missingPlaceholder (String.ofList d.path)).toList,
          p.complain (.refused (String.ofList d.path))) []
  | circular {chain : List String} {depth : Nat} {d : Directive} {p : Pass} {path : String}
      (h : caps.Follows p.progress.includes)
      (hpath : Path.normalize? .document (String.ofList d.path) = some path) (hchain : path ∈ chain) :
      Yields contents caps (.directive chain depth d) p
        ((circularPlaceholder path).toList, p.complain (.circular path)) []
  | missing {chain : List String} {depth : Nat} {d : Directive} {p : Pass} {path : String}
      (h : caps.Follows p.progress.includes)
      (hpath : Path.normalize? .document (String.ofList d.path) = some path) (hchain : path ∉ chain)
      (hread : p.content? contents path = none) :
      Yields contents caps (.directive chain depth d) p
        ((missingPlaceholder path).toList, (p.following path).complain (.missing path))
        [p.visit path chain]
  | included {chain : List String} {depth : Nat} {d : Directive} {p : Pass} {path content : String}
      {r : List Char × Pass} {visits : List Visit}
      (h : caps.Follows p.progress.includes)
      (hpath : Path.normalize? .document (String.ofList d.path) = some path) (hchain : path ∉ chain)
      (hread : p.content? contents path = some content)
      (hcontent : Yields contents caps (.content (chain ++ [path]) (depth + 1) content.toList)
        (p.following path) r visits) :
      Yields contents caps (.directive chain depth d) p r (p.visit path chain :: visits)

variable {contents : Contents} {caps : Caps} {work : Work} {p : Pass} {r r' : List Char × Pass}
  {visits visits' : List Visit}

/-- Work yields one thing. -/
theorem Yields.unique (h : Yields contents caps work p r visits)
    (h' : Yields contents caps work p r' visits') : r = r' ∧ visits = visits' := by
  induction h generalizing r' visits' with
  | deep hlimit h =>
    cases h' with
    | deep hlimit' => cases hlimit.symm.trans hlimit'; exact ⟨rfl, rfl⟩
    | shallow hshallow => exact absurd h (Int.not_lt.2 (hshallow _ hlimit))
  | shallow h _ ih =>
    cases h' with
    | deep hlimit h' => exact absurd h' (Int.not_lt.2 (h _ hlimit))
    | shallow _ hpieces => exact ih hpieces
  | finished => cases h'; exact ⟨rfl, rfl⟩
  | character _ ih =>
    cases h' with
    | character h' =>
      obtain ⟨he, rfl⟩ := ih h'
      cases he
      exact ⟨rfl, rfl⟩
  | replaced _ _ ihd ih =>
    cases h' with
    | replaced hd' h' =>
      obtain ⟨he, rfl⟩ := ihd hd'
      cases he
      obtain ⟨he, rfl⟩ := ih h'
      cases he
      exact ⟨rfl, rfl⟩
  | spent hlimit h =>
    cases h' with
    | spent hlimit' => cases hlimit.symm.trans hlimit'; exact ⟨rfl, rfl⟩
    | refused h' | circular h' | missing h' | included h' =>
      exact absurd (h' _ hlimit) (Int.not_lt.2 h)
  | refused h hpath => cases h' <;> grind [Caps.Follows]
  | circular h hpath hchain => cases h' <;> grind [Caps.Follows]
  | missing h hpath hchain hread => cases h' <;> grind [Caps.Follows]
  | included h hpath hchain hread _ ih => cases h' <;> grind [Caps.Follows]

/-! ## What is computed -/

section Computed

variable {limits : Limits} {project : String} {revision : Int} {chain : List String} {depth levels : Nat}

theorem enters_caps : limits.caps.Enters depth ↔ (depth : Int) ≤ limits.depth :=
  ⟨fun h => h _ rfl, by rintro h limit ⟨⟩; exact h⟩

theorem follows_caps {includes : Nat} : limits.caps.Follows includes ↔ (includes : Int) < limits.includes :=
  ⟨fun h => h _ rfl, by rintro h limit ⟨⟩; exact h⟩

/-- A directive yields its answer, if the contents behind it yield what is computed. -/
theorem exists_yields_directive {read : Reader} (hread : read = contents.reader project revision)
    (hdeeper : ∀ chain text p, ∃ visits,
      Yields contents limits.caps (.content chain (depth + 1) text) ⟨project, revision, p⟩
        ((expand read limits levels chain text p).1,
          ⟨project, revision, (expand read limits levels chain text p).2⟩) visits)
    (d : Directive) {p : Progress} {r : List Char × Progress}
    (hr : answer read limits chain (expand read limits levels) d p = r) :
    ∃ visits, Yields contents limits.caps (.directive chain depth d) ⟨project, revision, p⟩
      (r.1, ⟨project, revision, r.2⟩) visits := by
  by_cases hp : (p.includes : Int) < limits.includes
  · have hfollows := follows_caps.2 hp
    subst hread
    cases (resolution_iff hp).2 hr with
    | refused hpath =>
      dsimp only
      exact ⟨_, .refused hfollows hpath⟩
    | circular hpath hchain =>
      dsimp only
      exact ⟨_, .circular hfollows hpath hchain⟩
    | missing hpath hchain hcontent =>
      dsimp only
      exact ⟨_, .missing hfollows hpath hchain hcontent⟩
    | @included path content hpath hchain hcontent =>
      obtain ⟨visits, hdeep⟩ := hdeeper (chain ++ [path]) content.toList (p.following path)
      exact ⟨_, .included hfollows hpath hchain hcontent hdeep⟩
  · rw [answer, if_pos (Int.not_lt.1 hp)] at hr
    subst hr
    exact ⟨_, .spent rfl (Int.not_lt.1 hp)⟩

/-- Pieces yield what they are put together to, if directives yield their answers. -/
theorem exists_yields_pieces {answerOne : Directive → Progress → List Char × Progress}
    (hanswer : ∀ d p, ∃ visits, Yields contents caps (.directive chain depth d) ⟨project, revision, p⟩
      ((answerOne d p).1, ⟨project, revision, (answerOne d p).2⟩) visits)
    (rest : List (Piece Directive)) (out : List Char) (p : Progress) :
    ∃ text q visits, Yields contents caps (.pieces chain depth rest) ⟨project, revision, p⟩
        (text, ⟨project, revision, q⟩) visits ∧
      rest.foldl (assemble answerOne) (out, p) = (text.reverse ++ out, q) := by
  induction rest generalizing out p with
  | nil => exact ⟨[], p, [], .finished, rfl⟩
  | cons piece rest ih =>
    cases piece with
    | char c =>
      obtain ⟨text, q, visits, hyields, hfold⟩ := ih (c :: out) p
      refine ⟨c :: text, q, visits, .character hyields, ?_⟩
      rw [List.foldl_cons, assemble, hfold, List.reverse_cons, List.append_assoc]
      rfl
    | hit d =>
      obtain ⟨visits, hd⟩ := hanswer d p
      obtain ⟨text, q, visits', hyields, hfold⟩ := ih ((answerOne d p).1.reverse ++ out) (answerOne d p).2
      refine ⟨(answerOne d p).1 ++ text, q, visits ++ visits', .replaced hd hyields, ?_⟩
      rw [List.foldl_cons, assemble, hfold, List.reverse_append, List.append_assoc]

/-- A content yields what is computed of it: as many levels of content are left as there are includes
up to the limit. -/
theorem exists_yields_content {read : Reader} (hread : read = contents.reader project revision)
    (hlevels : levels = (limits.depth + 1 - depth).toNat) (chain : List String) (text : List Char)
    (p : Progress) :
    ∃ visits, Yields contents limits.caps (.content chain depth text) ⟨project, revision, p⟩
      ((expand read limits levels chain text p).1,
        ⟨project, revision, (expand read limits levels chain text p).2⟩) visits := by
  induction levels generalizing depth chain text p with
  | zero => exact ⟨[], .deep rfl (by omega)⟩
  | succ levels ih =>
    have hbelow : levels = (limits.depth + 1 - (depth + 1)).toNat := by omega
    obtain ⟨out, q, visits, hpieces, hfold⟩ := exists_yields_pieces
      (fun d p => exists_yields_directive hread (ih hbelow) d rfl) (scan directive? text) [] p
    refine ⟨visits, .shallow (enters_caps.2 (by omega)) ?_⟩
    rw [expand, hfold]
    simpa using hpieces

end Computed

/-! ## What is kept on the way -/

/-- How a composition gets from one state to another over some paths that are read. -/
structure Pass.Leads (p q : Pass) (visits : List Visit) : Prop where
  project_eq : q.project = p.project
  revision_eq : q.revision = p.revision
  includes_eq : q.progress.includes = p.progress.includes + visits.length
  reads_eq : q.progress.reads = p.progress.reads ++ visits.map Visit.path
  complaints_subset : p.progress.complaints ⊆ q.progress.complaints

namespace Pass.Leads

variable {q q' : Pass}

theorem refl (p : Pass) : p.Leads p [] where
  project_eq := rfl
  revision_eq := rfl
  includes_eq := rfl
  reads_eq := (List.append_nil _).symm
  complaints_subset := List.Subset.refl _

theorem trans (h : p.Leads q visits) (h' : q.Leads q' visits') : p.Leads q' (visits ++ visits') where
  project_eq := h'.project_eq.trans h.project_eq
  revision_eq := h'.revision_eq.trans h.revision_eq
  includes_eq := by rw [h'.includes_eq, h.includes_eq, List.length_append, Nat.add_assoc]
  reads_eq := by rw [h'.reads_eq, h.reads_eq, List.map_append, List.append_assoc]
  complaints_subset := List.Subset.trans h.complaints_subset h'.complaints_subset

theorem complain (p : Pass) (c : Complaint) : p.Leads (p.complain c) [] :=
  { refl p with complaints_subset := fun _ ha => mem_addNew.2 (.inl ha) }

theorem following (p : Pass) (path : String) (chain : List String) :
    p.Leads (p.following path) [p.visit path chain] :=
  { refl p with
    includes_eq := rfl
    reads_eq := rfl }

end Pass.Leads

/-- Project and revision stay, and includes and reads are counted. -/
theorem Yields.leads (h : Yields contents caps work p r visits) : p.Leads r.2 visits := by
  induction h with
  | deep | spent | refused | circular => exact .complain _ _
  | finished => exact .refl _
  | shallow _ _ ih | character _ ih => exact ih
  | replaced _ _ ihd ih => exact ihd.trans ih
  | missing => exact (Pass.Leads.following _ _ _).trans (.complain _ _)
  | included _ _ _ _ _ ih => exact (Pass.Leads.following _ _ _).trans ih

/-! ## Documents -/

/-- What composing an entry yields, with the paths that are read for it. -/
inductive Composes (contents : Contents) (caps : Caps) (project : String) (revision : Int)
    (entry : String) : Option Document → List Visit → Prop where
  | noEntry (hentry : (contents.reader project revision).content? entry = none) :
      Composes contents caps project revision entry none [{ project, path := entry, revision, chain := [] }]
  | entry {content : String} {out : List Char} {q : Pass} {visits : List Visit}
      (hentry : (contents.reader project revision).content? entry = some content)
      (h : Yields contents caps (.content [entry] 0 content.toList)
        { project, revision, progress := { reads := [entry] } } (out, q) visits) :
      Composes contents caps project revision entry
        (some
          { content := String.ofList out
            mediaType := Document.pageType
            revision
            warnings := q.progress.complaints.map Complaint.message })
        ({ project, path := entry, revision, chain := [] } :: visits)

variable {limits : Limits} {project entry : String} {revision : Int} {d d' : Option Document}

theorem Composes.unique (h : Composes contents caps project revision entry d visits)
    (h' : Composes contents caps project revision entry d' visits') : d = d' ∧ visits = visits' := by
  cases h with
  | noEntry hentry =>
    cases h' with
    | noEntry => exact ⟨rfl, rfl⟩
    | entry hentry' => cases hentry.symm.trans hentry'
  | entry hentry h =>
    cases h' with
    | noEntry hentry' => cases hentry.symm.trans hentry'
    | entry hentry' h' =>
      cases hentry.symm.trans hentry'
      obtain ⟨he, rfl⟩ := h.unique h'
      cases he
      exact ⟨rfl, rfl⟩

/-- Whatever is stored, composing under limits yields what is computed. -/
theorem exists_composes (contents : Contents) (project : String) (revision : Int) (entry : String)
    (limits : Limits) :
    ∃ visits, Composes contents limits.caps project revision entry
        (compose (contents.reader project revision) revision entry limits).document visits ∧
      (compose (contents.reader project revision) revision entry limits).reads =
        visits.map Visit.path := by
  cases hentry : (contents.reader project revision).content? entry with
  | none =>
    rw [compose_noEntry revision limits hentry]
    exact ⟨_, .noEntry hentry, rfl⟩
  | some content =>
    have hlevels : (limits.depth + 1).toNat = (limits.depth + 1 - 0).toNat := by rw [Int.sub_zero]
    obtain ⟨visits, h⟩ := exists_yields_content (Eq.refl (contents.reader project revision)) hlevels
      [entry] content.toList { reads := [entry] }
    refine ⟨{ project, path := entry, revision, chain := [] } :: visits, ?_, ?_⟩ <;>
      rw [compose, hentry]
    · exact .entry hentry h
    · exact h.leads.reads_eq

end VersionedSite.Include
