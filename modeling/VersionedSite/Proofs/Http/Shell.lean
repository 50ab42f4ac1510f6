import VersionedSite.Proofs.Document.Shell
import VersionedSite.Proofs.Http.Link
import VersionedSite.Proofs.Http.Preview
import VersionedSite.Proofs.Service.Numbering

/-!
# The module of a shell

A shell is a page that loads the browser module of its project. Whoever reads the page and follows the
link to the module says nothing about itself: a token in the link stands in for the owner. As long as the
token is not up, following the link gets what the owner gets who asks for the module at the number that the
shell was asked for, and gets the same however much has been requested since (`exchange_link`). A project
that is named like a step that clients leave out is served a shell whose link leads them elsewhere
(`exchange_link_of_dot`).

* `positive_exchanges`: no revision is numbered below one.
* `exchange_shell`: what is served with a shell.
* `moduleFor_later`: the module at a number stays.
* `exchange_source`: what following the link gets.
-/

namespace VersionedSite.Http

open Service Store Text

variable {x x' : Surroundings} {r : Request} {s t : Service} {project user : String} {n number : Int}

/-! ## Numbers -/

/-- One request numbers no revision below one. -/
theorem positive_exchange (h : s.store.Positive) (hs : s.store.Gapless) (hp : IsPlausible x r s) :
    (exchange x r s).2.store.Positive := by
  have hleaves := exchange_leaves x r s
  generalize (exchange x r s).2 = t at hleaves ⊢
  cases hleaves with
  | composed ht =>
    obtain ⟨modules, count, rfl⟩ := ht
    exact h
  | saved _ hcall =>
    exact Positive.save h hs (fun _ hn => hn) (x.ends_run_plausible _ (hp _ _ hcall rfl))
  | savedRough _ hcall =>
    exact Positive.saveRough h hs (fun _ hn => hn) (x.ends_run_plausible _ (hp _ _ hcall rfl))
  | retried _ hcall =>
    exact Positive.retry h hs (fun _ hn => hn) (x.ends_run_plausible _ (hp _ _ hcall rfl))
  | pinned _ _ _ hpin => exact Positive.pin h hpin

theorem positive_exchanges {requests : List (Surroundings × Request)} (h : s.store.Positive)
    (hs : s.Hosting) (hp : ArePlausible requests s) : (exchanges requests s).store.Positive := by
  induction requests generalizing s with
  | nil => exact h
  | cons e requests ih =>
    rw [exchanges_cons]
    exact ih (positive_exchange h hs.healthy.gapless hp.1) (upholds_exchange hs hp.1).hosting hp.2

/-! ## Replies -/

/-- What an owner who asks for a module by its number is answered. -/
theorem exchange_bundle (h : Gets r (some user)) {token : Option String}
    (hcall : r.call? = some (.bundle project number token)) (x : Surroundings) (s : Service) :
    (exchange x r s).1 =
      .ofExcept (.ofDocument Reply.uncached) (moduleFor x s.store project number (.str user)) := by
  rw [h.exchange_fst, h.respond_eq hcall]
  rfl

/-- A shell that is served loads the module at the number that was asked for, by a link with a token that
was issued for it. -/
theorem exchange_shell (h : Gets r (some user)) (hcall : r.call? = some (.shell project n))
    (hok : (exchange x r s).1.status = 200) :
    (exchange x r s).2 = s ∧ ∃ number token, ownedNumber s.store project user (some n) = .ok number ∧
      x.signer.issue x.seconds project number user = .ok token ∧
      (exchange x r s).1 = .ofPage number
        (Document.loaderPage (link project number token) x.settings.stylingCdnUrl) := by
  have hreply := h.exchange_fst x s
  rw [h.respond_eq hcall, answerFor] at hreply
  rw [hreply] at hok ⊢
  refine ⟨by rw [(exchange_eq x r s).2, h.respond_eq hcall]; rfl, ?_⟩
  dsimp only at hok ⊢
  cases hn : ownedNumber s.store project user (some n) with
  | error e =>
    rw [hn] at hok
    have hge : 400 ≤ 200 := hok ▸ status_ofError_ge e
    exact absurd hge (by decide)
  | ok number =>
    rw [hn] at hok
    have hpage : Reply.ofExcept (fun n => shellPage x project n user) (.ok number) =
        shellPage x project number user := rfl
    rw [hpage, shellPage] at hok ⊢
    cases hi : x.signer.issue x.seconds project number user with
    | error fault =>
      rw [hi] at hok
      cases hok
    | ok token => exact ⟨number, token, rfl, hi, rfl⟩

/-! ## Modules that stay -/

/-- The number that an owner was given is given to the owner for good. -/
theorem ownedNumber_later (hpos : s.store.Positive) (hlater : s.store.Later t.store) (ht : t.store.Owned)
    (hn : ownedNumber s.store project user (some n) = .ok number) :
    number ≤ s.store.greatest project ∧ ownedNumber s.store project user (some number) = .ok number ∧
      ownedNumber t.store project user (some number) = .ok number := by
  cases hl : ownedLatest s.store project user with
  | error e =>
    rw [ownedNumber, hl] at hn
    cases hn
  | ok latest =>
    obtain ⟨hlatest, rfl⟩ := ownedLatest_eq_ok.1 hl
    have hnumber : numberFor (some n) latest = .ok number := by
      rw [ownedNumber, hl] at hn
      exact hn
    obtain ⟨hmem, rfl, hgreatest⟩ := latest?_eq_some hlatest
    have hle := numberFor_le hnumber
    have hone : 1 ≤ number := by
      have hfirst := hpos latest hmem
      unfold numberFor at hnumber
      dsimp only at hnumber
      split at hnumber
      · cases hnumber
        exact hfirst
      · split at hnumber <;> cases hnumber
        omega
    obtain ⟨last, hlast, huser⟩ := (ht.revisions latest (hlater.revisions hmem)).latest?_eq
    have hgrown := hlater.greatest_le latest.project
    rw [← hgreatest, ← (latest?_eq_some hlast).2.2] at hgrown
    exact ⟨hgreatest ▸ hle, ownedNumber_eq_ok hlatest rfl ⟨hone, hle⟩,
      ownedNumber_eq_ok hlast huser ⟨hone, hle.trans hgrown⟩⟩

/-- The module that an owner was given stays, for the same toolchain. -/
theorem moduleFor_later (hpos : s.store.Positive) (hs : s.Hosting) {moved : String → String → Prop}
    (hu : Upholds moved s t) (ht : t.store.Owned) (hsettings : x'.settings = x.settings)
    (htools : x'.tools = x.tools) (hn : ownedNumber s.store project user (some n) = .ok number) :
    moduleFor x' t.store project number (.str user) = moduleFor x s.store project number (.str user) := by
  obtain ⟨hle, hown, hown'⟩ := ownedNumber_later hpos hu.later ht hn
  have hbundle := bundleAt_congr (hu.later.sameContents hle) hs.healthy.sound.toKeyed hs.coherent
    hu.hosting.healthy.sound.toKeyed hu.hosting.coherent x.settings x.tools
  simp only [moduleFor, hown, hown', hsettings, htools]
  exact hbundle

/-! ## Following the link -/

/-- Whether it is a whole second of a date. -/
structure Surroundings.IsAt (x : Surroundings) (time : Int) : Prop where
  now_eq : x.now = 1000 * time
  isDatable : isDatable x.now = true

/-- Who has a token that was issued in time is answered as the user that it was issued for. -/
theorem moduleByToken_eq {time time' : Int} {token : String}
    (hi : x.signer.issue x.seconds project number user = .ok token) (hx : x.IsAt time)
    (hx' : x'.IsAt time') (hsettings : x'.settings = x.settings)
    (htime : time' ≤ time + x.settings.previewTokenTtlSeconds) (store : Store) :
    moduleByToken x' store project number (some token) =
      .ofExcept (.ofDocument Reply.uncached) (moduleFor x' store project number (.str user)) := by
  have hsigner : x'.signer = x.signer := by rw [Surroundings.signer, Surroundings.signer, hsettings]
  have hhex : x.signer.SignsInHex := TokenSigner.signsInHex_ofSecret _ _
  have hverified : x'.signer.verify x'.seconds token project number = .granted (.str user) := by
    rw [hsigner]
    exact TokenSigner.verify_in_time hhex rfl hx.now_eq hx'.now_eq hx.isDatable hx'.isDatable htime hi
  have htoken : (some token).filter (· ≠ "") = some token := by
    simp [TokenSigner.ne_empty_of_issue hi]
  rw [moduleByToken, htoken]
  dsimp only
  rw [hverified]

/-- Whoever follows the link of a shell in time is answered as the owner, in whatever state the service is
by then. -/
theorem exchange_source {shell : Request} {time : Int} (hproject : IsUnreserved project.toList)
    (hshell : Gets shell (some user))
    (hcall : shell.call? = some (.shell project n)) (hx : x.IsAt time)
    (hok : (exchange x shell s).1.status = 200) :
    ∃ number page source, ownedNumber s.store project user (some n) = .ok number ∧
      (exchange x shell s).1 = .ofPage number page ∧ Document.moduleSource? page = some source ∧
      (project ≠ "." ∧ project ≠ ".." → IsSentAsIs (unescape source)) ∧
      ∀ (x' : Surroundings) (time' : Int) (r : Request), x'.settings = x.settings → x'.IsAt time' →
        time' ≤ time + x.settings.previewTokenTtlSeconds → Gets r none → r.target = unescape source →
        ∀ t, (exchange x' r t).1 =
          .ofExcept (.ofDocument Reply.uncached) (moduleFor x' t.store project number (.str user)) := by
  obtain ⟨number, token, hn, hi, hpage⟩ := (exchange_shell hshell hcall hok).2
  obtain ⟨hne, hlength⟩ := call?_shell hcall
  have hwritable : TokenSigner.isWritable number = true := by
    obtain ⟨_, -, hw, -⟩ := TokenSigner.issue_eq_ok.1 hi
    exact hw
  have htoken := isUnreserved_issue (TokenSigner.signsInHex_ofSecret _ _) hi
  refine ⟨number, _, _, hn, hpage, Document.moduleSource?_loaderPage _ _, ?_, ?_⟩
  · intro hdots
    rw [unescape_escape]
    exact isSentAsIs_link hproject hdots number htoken
  · intro x' time' r hsettings hx' htime hr htarget t
    rw [unescape_escape] at htarget
    rw [hr.exchange_fst, respond_link hproject hne hlength hwritable htoken hr.method_eq htarget,
      hr.identity_eq]
    exact moduleByToken_eq hi hx hx' hsettings htime t.store

/-- An owner who is served a shell finds in it a link to the browser module at the number that was asked
for. Whoever requests the link without saying who it is, at a whole second before its token is up and after
whatever else has been requested, is answered as the owner who asks for the module at that number; and as
the owner was at first, as long as the toolchain stays the same. The name of the project has to stand for
itself in an address. A client sends the link as it is, unless the project has one of the names `.` and
`..`, which are steps that clients leave out. -/
theorem exchange_link (settings : Settings) (ids : IdSupply)
    (before later : List (Surroundings × Request)) {shell : Request} {time : Int}
    (hproject : IsUnreserved project.toList) (hshell : Gets shell (some user))
    (hcall : shell.call? = some (.shell project n)) (hx : x.IsAt time)
    (hok : (exchange x shell (exchanges before (start settings ids))).1.status = 200) :
    let s := exchanges before (start settings ids)
    let t := exchanges later (exchange x shell s).2
    ∃ number page source, ownedNumber s.store project user (some n) = .ok number ∧
      (exchange x shell s).1 = .ofPage number page ∧ Document.moduleSource? page = some source ∧
      (project ≠ "." ∧ project ≠ ".." → IsSentAsIs (unescape source)) ∧
      ∀ (x' : Surroundings) (time' : Int) (r owned : Request) (token : Option String),
        x'.settings = x.settings → x'.IsAt time' →
        time' ≤ time + x.settings.previewTokenTtlSeconds →
        Gets r none → r.target = unescape source →
        Gets owned (some user) → owned.call? = some (.bundle project number token) →
        (exchange x' r t).1 = (exchange x' owned t).1 ∧
          (ArePlausible before (start settings ids) → ArePlausible later (exchange x shell s).2 →
            x'.tools = x.tools → (exchange x' r t).1 = (exchange x owned s).1) := by
  intro s t
  have hsame := (exchange_shell hshell hcall hok).1
  obtain ⟨number, page, source, hn, hpage, hsource, hsent, hlink⟩ :=
    exchange_source hproject hshell hcall hx hok
  refine ⟨number, page, source, hn, hpage, hsource, hsent, ?_⟩
  intro x' time' r owned token hsettings hx' htime hr htarget howned hbundle
  rw [hlink x' time' r hsettings hx' htime hr htarget, exchange_bundle howned hbundle,
    exchange_bundle howned hbundle]
  refine ⟨rfl, fun hbefore hlater htools => congrArg _ ?_⟩
  have hbeginning := hosting_start settings ids
  have hs := upholds_exchanges hbeginning hbefore
  have hpositive : (start settings ids).store.Positive := by simp [start, Store.Positive]
  have howner := owned_exchanges (owned_start settings ids) before
  rw [hsame] at hlater
  have ht : t = exchanges later s := congrArg (exchanges later) hsame
  rw [ht]
  exact moduleFor_later (positive_exchanges hpositive hbeginning hbefore) hs.hosting
    (upholds_exchanges hs.hosting hlater) (owned_exchanges howner later).store hsettings htools hn

/-- A request for something about the components that were saved first. -/
def atFirst (project part : String) (user : Option String) : Request where
  method := "GET"
  target := "/api/preview/" ++ project ++ "/1/" ++ part
  user := user
  body := ""

/-- The components are saved. -/
def beginning : List (Surroundings × Request) := [(workshop, saveOfComponents)]

/-- The components are saved again, and a page beside them. -/
def continuation : List (Surroundings × Request) :=
  [(workshop, saveOfComponents), (workshop, saveOfPage "new")]

/-- The workshop when tokens of the beginning are about to be up. -/
def closingTime : Surroundings := { workshop with now := 300000 }

theorem exchange_link_shop :
    let s := exchanges beginning (start {} lengthening)
    let t := exchanges continuation (exchange workshop (atFirst "shop" "app" (some "ann")) s).2
    ∃ page source, (exchange workshop (atFirst "shop" "app" (some "ann")) s).1 = .ofPage 1 page ∧
      Document.moduleSource? page = some source ∧ IsSentAsIs (unescape source) ∧
      ∀ r, Gets r none → r.target = unescape source →
        (exchange closingTime r t).1 =
          (exchange workshop (atFirst "shop" "bundle" (some "ann")) s).1 := by
  have hann : identity (some "ann") = some "ann" := by decide +kernel
  have hplain : IsUnreserved "shop".toList := by decide
  have hdots : "shop" ≠ "." ∧ "shop" ≠ ".." := by decide
  have hshell : (atFirst "shop" "app" (some "ann")).call? = some (.shell "shop" 1) := by decide +kernel
  have hbundle : (atFirst "shop" "bundle" (some "ann")).call? = some (.bundle "shop" 1 none) := by
    decide +kernel
  have hgets : Gets (atFirst "shop" "app" (some "ann")) (some "ann") := ⟨rfl, hann⟩
  have howned : Gets (atFirst "shop" "bundle" (some "ann")) (some "ann") := ⟨rfl, hann⟩
  have hnow : workshop.IsAt 0 := ⟨rfl, by decide⟩
  have hlast : closingTime.IsAt 300 := ⟨rfl, by decide⟩
  have htime : (300 : Int) ≤ 0 + workshop.settings.previewTokenTtlSeconds := by decide
  have hok : (exchange workshop (atFirst "shop" "app" (some "ann"))
      (exchanges beginning (start {} lengthening))).1.status = 200 := by decide +kernel
  have hfirst : ownedNumber (exchanges beginning (start {} lengthening)).store "shop" "ann" (some 1) =
      .ok 1 := by decide +kernel
  have hcurrent : ∀ r s, IsPlausible workshop r s := fun _ _ => isPlausible_of_current rfl
  have hbefore : ArePlausible beginning (start {} lengthening) := ⟨hcurrent _ _, trivial⟩
  have hlater : ∀ s, ArePlausible continuation s := fun _ => ⟨hcurrent _ _, hcurrent _ _, trivial⟩
  obtain ⟨number, page, source, hn, hpage, hsource, hsent, hlink⟩ := exchange_link {} lengthening beginning
    continuation hplain hgets hshell hnow hok
  cases hfirst.symm.trans hn
  refine ⟨page, source, hpage, hsource, hsent hdots, fun r hr htarget => ?_⟩
  have hsame := hlink closingTime 300 r _ none rfl hlast htime hr htarget howned hbundle
  exact hsame.2 hbefore (hlater _) rfl

def saveAtDot : Request := { saveOfComponents with target := "/api/projects/%2e/files" }

/-- A project whose name is a single dot has a shell and a module. But whoever asks for the link leaves the
dot out, and what is left leads to a preview, which is not shown to who does not say who it is. -/
theorem exchange_link_of_dot :
    let s := exchanges [(workshop, saveAtDot)] (start {} lengthening)
    let shell := (exchange workshop (atFirst "%2e" "app" (some "ann")) s).1
    IsUnreserved ".".toList ∧ (exchange workshop (atFirst "%2e" "bundle" (some "ann")) s).1.status = 200 ∧
      ∃ page source, shell = .ofPage 1 page ∧ Document.moduleSource? page = some source ∧
        (∃ r, Request.compose "GET" (unescape source) none "" = .ok r) ∧
        ∀ body r, Request.compose "GET" (unescape source) none body = .ok r →
          (exchange workshop r s).1 = unidentified := by
  intro s shell
  have hann : identity (some "ann") = some "ann" := by decide +kernel
  have hplain : IsUnreserved ".".toList := by decide
  have hshell : (atFirst "%2e" "app" (some "ann")).call? = some (.shell "." 1) := by decide +kernel
  have hgets : Gets (atFirst "%2e" "app" (some "ann")) (some "ann") := ⟨rfl, hann⟩
  have hok : shell.status = 200 := by decide +kernel
  obtain ⟨-, number, token, hn, hi, hpage⟩ := exchange_shell hgets hshell hok
  have hfirst : ownedNumber s.store "." "ann" (some 1) = .ok 1 := by decide +kernel
  cases hfirst.symm.trans hn
  have htoken := isUnreserved_issue (TokenSigner.signsInHex_ofSecret _ _) hi
  have hlead : (link "." 1 token).toList = '/' :: 'a' :: _ := toList_link hplain 1 token
  refine ⟨hplain, by decide +kernel, _, _, hpage, Document.moduleSource?_loaderPage _ _, ?_, ?_⟩
  · -- The link is short enough to be sent.
    have hsendable : (workshop.signer.issue workshop.seconds "." 1 "ann").toOption.all
        (fun token => (Request.compose "GET" (link "." 1 token) none "").isOk) = true := by
      decide +kernel
    rw [hi] at hsendable
    rw [unescape_escape]
    cases hr : Request.compose "GET" (link "." 1 token) none "" with
    | ok r => exact ⟨r, rfl⟩
    | error fault =>
      simp only [Except.toOption, Option.all_some, hr] at hsendable
      cases hsendable
  · intro body r hr
    rw [unescape_escape] at hr
    obtain ⟨htarget, hmethod, huser⟩ := Request.compose_of_path hlead (by decide) hr
    have hpath : (Address.ofText r.target).path = "/api/preview/1/bundle" := by
      have hquestion : '?' ∉ Request.rooted (['/'].intercalate (moduleSteps "." 1)) := by decide +kernel
      rw [htarget, asSent_link_eq hplain 1 htoken, Address.ofText, String.toList_ofList,
        takeWhile_ne hquestion]
      dsimp only
      decide +kernel
    have hr : Gets r none := ⟨hmethod, by rw [huser]; rfl⟩
    have hroute : route r.method (Address.ofText r.target).path = .found (.preview "1" "bundle") := by
      rw [hr.method_eq, hpath]
      decide +kernel
    have hbody : r.bodyFor (.preview "1" "bundle") = .ok .missing := rfl
    rw [hr.exchange_fst, respond_found hroute, serve_eq hbody, hr.identity_eq]
    rfl

end VersionedSite.Http
