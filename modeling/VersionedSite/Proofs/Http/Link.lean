import Mathlib.Data.List.TakeWhile
import VersionedSite.Http.Sending
import VersionedSite.Proofs.Http.Call
import VersionedSite.Proofs.Path.Segments
import VersionedSite.Proofs.PreviewToken.Lifetime

/-!
# Links to browser modules

A link to the browser module of a project is made of the path of the module and a token. As long as the
project's name is written in characters that stand for themselves in an address, a request whose target is
the link asks for this module with this token (`respond_link`). Clients send the link as it is, unless the
project's name is a step that they leave out (`isSentAsIs_link`).

* `modulePath_eq`: the path of a module.
* `asSent_link_eq`, `asSent_link`: what is sent for a link.
* `ofText_link`: the address that a link is.
* `route_modulePath`: where its path leads.
-/

namespace VersionedSite.Http

open Text

/-! ## Characters -/

/-- Whether a character stands for itself anywhere in an address. -/
def isUnreserved (c : Char) : Bool := c.isAlphanum || c == '-' || c == '.' || c == '_' || c == '~'

/-- Whether a text is written in characters that stand for themselves. -/
def IsUnreserved (s : List Char) : Prop := ∀ c ∈ s, isUnreserved c = true

instance (s : List Char) : Decidable (IsUnreserved s) :=
  decidable_of_iff (s.all isUnreserved = true) List.all_eq_true

theorem IsUnreserved.not_mem {s : List Char} (h : IsUnreserved s) {c : Char}
    (hc : isUnreserved c = false) : c ∉ s :=
  fun hm => Bool.false_ne_true (hc.symm.trans (h c hm))

theorem isUnreserved_toString (n : Int) : IsUnreserved (toString n).toList := by
  intro c hc
  obtain hdigit | rfl := Json.isDigit_of_mem_toString hc
  · simp [isUnreserved, Char.isAlphanum, hdigit]
  · decide

/-- The digits, letters and other characters of tokens all stand for themselves. -/
theorem isUnreserved_issue {s : TokenSigner} (hs : s.SignsInHex) {seconds : Number}
    {project user token : String} {revision : Int}
    (h : s.issue seconds project revision user = .ok token) : IsUnreserved token.toList := by
  have hdigit : ∀ n < 64, isUnreserved (Base64.digit n) = true := by decide
  refine TokenSigner.forall_mem_issue hs hdigit (by decide) (fun c hc => ?_) h
  rcases hc with ⟨hlow, hhigh⟩ | ⟨hlow, hhigh⟩
  · have hc : c.isDigit = true := Bool.and_eq_true_iff.2 ⟨decide_eq_true hlow, decide_eq_true hhigh⟩
    simp [isUnreserved, Char.isAlphanum, hc]
  · have hz : c ≤ 'z' := Char.le_trans hhigh (by decide)
    have hc : c.isLower = true := Bool.and_eq_true_iff.2 ⟨decide_eq_true hlow, decide_eq_true hz⟩
    have hletter : c.isAlpha = true := Bool.or_eq_true_iff.2 (.inr hc)
    simp [isUnreserved, Char.isAlphanum, hletter]

/-! ## Paths -/

variable {project : String} {number : Int}

/-- The path of a browser module, step by step. -/
def moduleSteps (project : String) (number : Int) : List (List Char) :=
  [[], "api".toList, "preview".toList, project.toList, (toString number).toList, "bundle".toList]

theorem isUnreserved_of_mem_moduleSteps (h : IsUnreserved project.toList) (number : Int) :
    ∀ step ∈ moduleSteps project number, IsUnreserved step := by
  simp only [moduleSteps, List.forall_mem_cons]
  exact ⟨by decide, by decide, by decide, h, isUnreserved_toString number, by decide, nofun⟩

/-- What stands in a path but for slashes stands for itself. -/
theorem not_mem_modulePath (h : IsUnreserved project.toList) (number : Int) {c : Char}
    (hc : isUnreserved c = false) (hslash : c ≠ '/') :
    c ∉ ['/'].intercalate (moduleSteps project number) := by
  intro hm
  obtain he | ⟨step, hstep, hm⟩ := Path.mem_intercalate hm
  · exact hslash he
  · exact (isUnreserved_of_mem_moduleSteps h number step hstep).not_mem hc hm

theorem modulePath_eq (h : IsUnreserved project.toList) (number : Int) :
    modulePath project number = String.ofList (['/'].intercalate (moduleSteps project number)) := by
  have hlead : '{' ∉ "/api/preview/".toList ++ project.toList ++ ['/'] := by
    simp only [List.mem_append, not_or]
    exact ⟨⟨by decide, h.not_mem (by decide)⟩, by decide⟩
  have hnamed : substitute "\x7bproject_id\x7d".toList project.toList
      "/api/preview/\x7bproject_id\x7d/\x7brevision_number\x7d/bundle".toList =
        "/api/preview/".toList ++ project.toList ++ ['/'] ++
          ('{' :: ("revision_number\x7d".toList ++ "/bundle".toList)) := by
    rw [List.append_assoc, List.append_assoc]
    rfl
  have hnumbered : substitute "\x7brevision_number\x7d".toList (toString number).toList
      ("/api/preview/".toList ++ project.toList ++ ['/'] ++
        ('{' :: ("revision_number\x7d".toList ++ "/bundle".toList))) =
        ['/'].intercalate (moduleSteps project number) := by
    have hmark : "\x7brevision_number\x7d".toList = '{' :: "revision_number\x7d".toList := rfl
    rw [hmark, substitute_append hlead, substitute_mark]
    simp only [moduleSteps, List.intercalate_cons_cons, List.intercalate_singleton, List.append_assoc]
    rfl
  have hkept : ∀ c ∈ ['/'].intercalate (moduleSteps project number),
      c ≠ '?' ∧ c ≠ '#' ∧ c ≠ '\t' ∧ c ≠ '\n' ∧ c ≠ '\r' := by
    intro c hc
    refine ⟨?_, ?_, ?_, ?_, ?_⟩ <;> rintro rfl <;>
      exact not_mem_modulePath h number (by decide) (by decide) hc
  rw [modulePath, hnamed, hnumbered, List.takeWhile_eq_self_iff.2, List.filter_eq_self.2]
  · exact fun c hc => decide_eq_true (hkept c hc).2.2
  · exact fun c hc => decide_eq_true ⟨(hkept c hc).1, (hkept c hc).2.1⟩

theorem splitOn_moduleSteps (h : IsUnreserved project.toList) (number : Int) :
    (['/'].intercalate (moduleSteps project number)).splitOn '/' = moduleSteps project number :=
  List.splitOn_intercalate _
    (fun step hstep => (isUnreserved_of_mem_moduleSteps h number step hstep).not_mem (by decide))
    (List.cons_ne_nil _ _)

/-! ## Addresses -/

theorem decodeTerm_eq {s : List Char} (h : IsUnreserved s) : Address.decodeTerm s = String.ofList s := by
  have hplus : s.map (fun c => if c == '+' then ' ' else c) = s := by
    conv_rhs => rw [← List.map_id s]
    refine List.map_congr_left fun c hc => ?_
    have hne : c ≠ '+' := fun he => h.not_mem (by decide) (he ▸ hc)
    simp [hne]
  rw [Address.decodeTerm, hplus, Percent.decode_of_not_mem (h.not_mem (by decide))]

theorem takeWhile_ne {c : Char} {s : List Char} (h : c ∉ s) (t : List Char) :
    (s ++ c :: t).takeWhile (· ≠ c) = s := by
  have hs : ∀ d ∈ s, decide (d ≠ c) = true := fun d hd => decide_eq_true fun he => h (he ▸ hd)
  rw [List.takeWhile_append_of_pos hs]
  simp

theorem dropWhile_ne {c : Char} {s : List Char} (h : c ∉ s) (t : List Char) :
    (s ++ c :: t).dropWhile (· ≠ c) = c :: t := by
  have hs : ∀ d ∈ s, decide (d ≠ c) = true := fun d hd => decide_eq_true fun he => h (he ▸ hd)
  rw [List.dropWhile_append_of_pos hs]
  simp

/-- A query of one name and one value. -/
theorem pairs_single {name value : List Char} (hname : IsUnreserved name) (hvalue : IsUnreserved value) :
    Address.pairs (name ++ '=' :: value) = [(String.ofList name, String.ofList value)] := by
  have hand : '&' ∉ name ++ '=' :: value := by
    simp only [List.mem_append, List.mem_cons, not_or]
    exact ⟨hname.not_mem (by decide), by decide, hvalue.not_mem (by decide)⟩
  have hone : (['&'].intercalate [name ++ '=' :: value]).splitOn '&' = [name ++ '=' :: value] :=
    List.splitOn_intercalate '&' (List.forall_mem_singleton.2 hand) (List.cons_ne_nil _ _)
  have hequals : '=' ∉ name := hname.not_mem (by decide)
  rw [List.intercalate_singleton] at hone
  rw [Address.pairs, hone, List.filter_cons_of_pos (by simp), List.filter_nil, List.map_singleton,
    Address.pair, takeWhile_ne hequals, dropWhile_ne hequals, List.drop_one, List.tail_cons,
    decodeTerm_eq hname, decodeTerm_eq hvalue]

/-- The link to the browser module of a project at a revision, with a token. -/
def link (project : String) (number : Int) (token : String) : String :=
  modulePath project number ++ "?token=" ++ token

theorem toList_link (h : IsUnreserved project.toList) (number : Int) (token : String) :
    (link project number token).toList =
      ['/'].intercalate (moduleSteps project number) ++ '?' :: ("token".toList ++ '=' :: token.toList) := by
  rw [link, modulePath_eq h]
  simp

theorem ofText_link (h : IsUnreserved project.toList) (number : Int) {token : String}
    (ht : IsUnreserved token.toList) :
    Address.ofText (link project number token) =
      { path := modulePath project number, query := [("token", token)] } := by
  have hquestion := not_mem_modulePath h number (c := '?') (by decide) (by decide)
  have hpercent := not_mem_modulePath h number (c := '%') (by decide) (by decide)
  have hname : IsUnreserved "token".toList := by decide
  rw [Address.ofText, toList_link h, takeWhile_ne hquestion, dropWhile_ne hquestion, List.drop_one,
    List.tail_cons, pairs_single hname ht, Percent.decode_of_not_mem hpercent, modulePath_eq h,
    String.ofList_toList, String.ofList_toList]

/-! ## Sending -/

/-- No step of the path of a module is left out of an address, unless the project's name is such a
step. -/
theorem rooted_moduleSteps (h : IsUnreserved project.toList) (hdots : project ≠ "." ∧ project ≠ "..")
    (number : Int) :
    Request.rooted (['/'].intercalate (moduleSteps project number)) =
      ['/'].intercalate (moduleSteps project number) := by
  have hproject : project.toList ≠ ['.'] ∧ project.toList ≠ ['.', '.'] :=
    ⟨fun he => hdots.1 (String.toList_inj.1 he), fun he => hdots.2 (String.toList_inj.1 he)⟩
  have hdot : '.' ∉ (toString number).toList := fun hm =>
    (Json.isDigit_of_mem_toString hm).elim (by decide) (by decide)
  have hnumber : (toString number).toList ≠ ['.'] ∧ (toString number).toList ≠ ['.', '.'] :=
    ⟨fun he => hdot (he ▸ List.mem_cons_self), fun he => hdot (he ▸ List.mem_cons_self)⟩
  have hplain : ∀ step ∈ moduleSteps project number, step ≠ ['.'] ∧ step ≠ ['.', '.'] := by
    simp only [moduleSteps, List.forall_mem_cons]
    exact ⟨by decide, by decide, by decide, hproject, hnumber, by decide, nofun⟩
  have hlead : ∃ rest, ['/'].intercalate (moduleSteps project number) = '/' :: 'a' :: rest := ⟨_, rfl⟩
  obtain ⟨rest, hrest⟩ := hlead
  have hdrop : '/' :: (['/'].intercalate (moduleSteps project number)).dropWhile (· == '/') =
      ['/'].intercalate (moduleSteps project number) := by
    rw [hrest]
    rfl
  rw [Request.rooted, hdrop, splitOn_moduleSteps h, Request.withoutDots_of_plain hplain, hrest]

/-- What is sent for a link: its path without the steps that lead nowhere. -/
theorem asSent_link_eq (h : IsUnreserved project.toList) (number : Int) {token : String}
    (ht : IsUnreserved token.toList) :
    Request.asSent (link project number token).toList =
      String.ofList (Request.rooted (['/'].intercalate (moduleSteps project number)) ++
        '?' :: ("token".toList ++ '=' :: token.toList)) := by
  have hquestion := not_mem_modulePath h number (c := '?') (by decide) (by decide)
  have hwhole : ∀ c ∈ (link project number token).toList, decide (c ≠ '#') = true := by
    intro c hc
    refine decide_eq_true ?_
    rintro rfl
    rw [toList_link h] at hc
    simp only [List.mem_append, List.mem_cons] at hc
    obtain hc | hc | hc | hc | hc := hc
    · exact not_mem_modulePath h number (by decide) (by decide) hc
    · exact absurd hc (by decide)
    · exact absurd hc (by decide)
    · exact absurd hc (by decide)
    · exact ht.not_mem (by decide) hc
  rw [Request.asSent, List.takeWhile_eq_self_iff.2 hwhole, toList_link h, takeWhile_ne hquestion,
    dropWhile_ne hquestion]

theorem asSent_link (h : IsUnreserved project.toList) (hdots : project ≠ "." ∧ project ≠ "..")
    (number : Int) {token : String} (ht : IsUnreserved token.toList) :
    Request.asSent (link project number token).toList = link project number token := by
  rw [asSent_link_eq h number ht, rooted_moduleSteps h hdots, ← toList_link h, String.ofList_toList]

/-- Whether whoever asks for an address, without saying who it is, sends the address as it is. -/
def IsSentAsIs (address : String) : Prop :=
  ∀ body r, Request.compose "GET" address none body = .ok r → Gets r none ∧ r.target = address

/-- Clients send a link as it is, unless the project's name is a step that they leave out. -/
theorem isSentAsIs_link (h : IsUnreserved project.toList) (hdots : project ≠ "." ∧ project ≠ "..")
    (number : Int) {token : String} (ht : IsUnreserved token.toList) :
    IsSentAsIs (link project number token) := by
  intro body r hr
  have hlead : (link project number token).toList = '/' :: 'a' :: _ := toList_link h number token
  obtain ⟨htarget, hmethod, huser⟩ := Request.compose_of_path hlead (by decide) hr
  refine ⟨⟨hmethod, ?_⟩, htarget.trans (asSent_link h hdots number ht)⟩
  rw [huser]
  rfl

/-! ## Requests -/

theorem toString_ne_empty (n : Int) : toString n ≠ "" := by
  intro he
  obtain ⟨c, more, hdigits, -⟩ := Json.exists_toDigits n.natAbs
  obtain ⟨-, htext⟩ | ⟨-, htext⟩ := Json.toString_cases n <;> rw [he] at htext
  · cases htext.trans hdigits
  · cases htext

theorem route_modulePath (h : IsUnreserved project.toList) (hne : project ≠ "") (number : Int) :
    route "GET" (modulePath project number) = .found (.bundle project (toString number)) := by
  have hsteps : stepsOf (modulePath project number) =
      ["", "api", "preview", project, toString number, "bundle"] := by
    rw [stepsOf, modulePath_eq h, String.toList_ofList, splitOn_moduleSteps h]
    simp [moduleSteps]
  have hnumber := toString_ne_empty number
  generalize toString number = text at hsteps hnumber ⊢
  have hendpoints : endpoints (modulePath project number) = [("GET", .bundle project text)] := by
    rw [endpoints, hsteps]
    simp [Endpoint.atWord, Endpoint.atText, wordLast, withoutFeed, Endpoint.texts, hne, hnumber]
  rw [route, hendpoints]
  rfl

/-- Whoever requests a link is answered as who asks for the module that it leads to, with its token. -/
theorem respond_link {r : Request} (h : IsUnreserved project.toList) (hne : project ≠ "")
    (hproject : project.length ≤ projectLimit) (hnumber : TokenSigner.isWritable number = true)
    {token : String} (ht : IsUnreserved token.toList) (hmethod : r.method = "GET")
    (htarget : r.target = link project number token) (x : Surroundings) (s : Service) :
    respond x r s = answer x (identity r.user) s (.bundle project number (some token)) := by
  have haddress := ofText_link h number ht
  have hlookup : (Address.ofText r.target).lookup "token" = some token := by
    rw [htarget, haddress]
    exact Address.lookup_last _ [] "token" token
  have hroute : route r.method (Address.ofText r.target).path =
      .found (.bundle project (toString number)) := by
    rw [hmethod, htarget, haddress]
    exact route_modulePath h hne number
  have hread := read_bundle (Address.ofText r.target) .missing hproject (of_decide_eq_true hnumber)
  rw [hlookup] at hread
  have hbody : r.bodyFor (.bundle project (toString number)) = .ok .missing := rfl
  have hanyone : (Endpoint.bundle project (toString number)).needsIdentity = false := rfl
  rw [respond_found hroute, serve_eq hbody, hanyone, hread]
  rfl

end VersionedSite.Http
