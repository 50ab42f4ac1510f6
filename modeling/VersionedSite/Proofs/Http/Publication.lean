import VersionedSite.Proofs.Http.Ownership
import VersionedSite.Proofs.Service.Publishing

/-!
# Requests about what is published

Whatever is requested, one request after another: every project keeps its public id, and who asks for
what is published gets the same until the owner publishes again (`exchanges_published`).

* `upholds_exchange`: what one request keeps of publications.
* `reply_published_eq`: who asks for what is published while its publication stays where it is.
-/

namespace VersionedSite.Http

open Service Program Store

/-- Whether numbers that a request reads too late have been next to be given out, or are so now. -/
def IsPlausible (x : Surroundings) (r : Request) (s : Service) : Prop :=
  ∀ call project, r.call? = some call → call.project? = some project →
    ∀ n ∈ x.faults.outdated, 1 ≤ n ∧ n ≤ s.store.greatest project + 1

/-- Whether each request is plausible when its turn comes. -/
def ArePlausible : List (Surroundings × Request) → Service → Prop
  | [], _ => True
  | e :: requests, s => IsPlausible e.1 e.2 s ∧ ArePlausible requests (exchange e.1 e.2 s).2

/-- Whether a request is one of a user to publish a project. -/
def Publishes (r : Request) (project user : String) : Prop :=
  identity r.user = some user ∧ ∃ number, r.call? = some (.publish project number)

variable {x x' : Surroundings} {r : Request} {s t : Service} {moved : String → String → Prop}
  {project user : String}

theorem isPlausible_of_current (h : x.faults.outdated = []) : IsPlausible x r s := by
  intro call project _ _ n hn
  rw [h] at hn
  cases hn

/-! ## Keeping publications -/

theorem Surroundings.ends_run_plausible {α : Type} (x : Surroundings) (p : Program α) {s : Service}
    (hp : ∀ n ∈ x.faults.outdated, 1 ≤ n ∧ n ≤ s.store.greatest project + 1) :
    p.Ends (.ofSettings x.settings x.now) (fun n => 1 ≤ n ∧ n ≤ s.store.greatest project + 1) s
      (x.run p s).1 (x.run p s).2 :=
  ends_of_run (x.faults.atTime x.now) hp

/-- One request moves at most the publication of who sends it. -/
theorem upholds_exchange (h : s.Hosting) (hp : IsPlausible x r s) :
    Upholds (Publishes r) s (exchange x r s).2 := by
  have hleaves := exchange_leaves x r s
  generalize (exchange x r s).2 = t at hleaves ⊢
  cases hleaves with
  | composed ht => exact h.continues (.composing h.healthy h.coherent ht) _
  | saved _ hcall =>
    exact h.continues (.save h.healthy h.coherent (fun _ hn => hn)
      (x.ends_run_plausible _ (hp _ _ hcall rfl))) _
  | savedRough _ hcall =>
    exact h.continues (.saveRough h.healthy h.coherent (fun _ hn => hn)
      (x.ends_run_plausible _ (hp _ _ hcall rfl))) _
  | retried _ hcall =>
    exact h.continues (.retry h.healthy h.coherent (fun _ hn => hn)
      (x.ends_run_plausible _ (hp _ _ hcall rfl))) _
  | pinned hu hcall hn hpin =>
    obtain ⟨hnumber, hsite⟩ := publishable_eq_ok h.healthy hn
    refine (h.pin hnumber hsite hpin).mono ?_
    rintro p u ⟨rfl, rfl⟩
    exact ⟨hu, _, hcall⟩

theorem upholds_exchanges {requests : List (Surroundings × Request)} (h : s.Hosting)
    (hp : ArePlausible requests s) :
    Upholds (fun project user => ∃ e ∈ requests, Publishes e.2 project user) s
      (exchanges requests s) := by
  induction requests generalizing s with
  | nil => exact h.upholds _
  | cons e requests ih =>
    rw [exchanges_cons]
    have hfirst := upholds_exchange h hp.1
    refine (hfirst.trans (ih hfirst.hosting hp.2)).mono fun project user hm => ?_
    rcases hm with hm | ⟨e', he', hm⟩
    · exact ⟨e, List.mem_cons_self, hm⟩
    · exact ⟨e', List.mem_cons_of_mem _ he', hm⟩

/-! ## What is served -/

theorem published_of_answer {publicId : String} (x : Surroundings) (user : Option String) (s : Service) :
    (answer x user s (.published publicId)).1 =
      .ofExcept (.ofDocument Reply.cachedBriefly)
        (publishedDocument x.settings x.tools s publicId).1 := by
  cases user <;> rfl

/-- While a publication stays where it is, whoever asks for it gets the same. -/
theorem reply_published_eq (h : s.Hosting) (hu : Upholds moved s t) {p : Publication}
    (hp : p ∈ s.store.publications) (hm : ¬ moved p.project p.user)
    (hcall : r.call? = some (.published p.publicId)) (hsettings : x'.settings = x.settings)
    (htools : x'.tools = x.tools) : (exchange x' r t).1 = (exchange x r s).1 := by
  obtain ⟨q, hq, -, -, -, rfl | hmoved⟩ := hu.keeps p hp
  · have hdocument : (publishedDocument x'.settings x'.tools t q.publicId).1 =
        (publishedDocument x.settings x.tools s q.publicId).1 := by
      rw [publishedDocument, publishedDocument, h.publication?_eq_some hp,
        hu.hosting.publication?_eq_some hq, hsettings, htools]
      exact documentAt_congr (hu.later.sameContents (h.number_le hp)) h.healthy.sound.toKeyed
        h.coherent hu.hosting.healthy.sound.toKeyed hu.hosting.coherent _ _
    have hresponse : (respond x' r t).1 = (respond x r s).1 := by
      obtain hr | ⟨-, hr⟩ := respond_of_call? hcall <;> rw [hr, hr]
      rw [published_of_answer, published_of_answer, hdocument]
    rw [exchange_fst, exchange_fst, hresponse]
  · exact absurd hmoved hm

/-! ## Requests from the start on -/

theorem hosting_start (settings : Settings) (ids : IdSupply) : (start settings ids).Hosting where
  healthy := healthy_start settings ids
  coherent := coherent_empty
  distinct := .nil
  drawn := by simp [start]
  numbered := by simp [start]
  composable := by simp [start]

theorem owned_start (settings : Settings) (ids : IdSupply) : (start settings ids).Owned :=
  ⟨⟨by simp [start], by simp [start]⟩, by simp [start, OrderedMap.empty]⟩

/-- After any requests from the start on, a project has one publication at most, by its owner, under a
public id of its own and at a number of the project at which an entry of a site is seen; whoever may
publish is not refused because of another publication. After any further requests the project has its public
id still, and who asks for what is published gets the same unless the owner has published again. -/
theorem exchanges_published (settings : Settings) (ids : IdSupply)
    (hids : Function.Injective ids.sequence) (before later : List (Surroundings × Request))
    (hbefore : ArePlausible before (start settings ids))
    (hlater : ArePlausible later (exchanges before (start settings ids))) :
    let s := exchanges before (start settings ids)
    let t := exchanges later s
    (s.store.publications.Pairwise fun p q => p.project ≠ q.project ∧ p.publicId ≠ q.publicId) ∧
    (∀ p ∈ s.store.publications, s.store.BelongsTo p.project p.user ∧
      p.number ∈ s.store.numbers p.project ∧ flavour? s.store p.project p.number ≠ none ∧
      (s.store.contentAt p.project Path.componentEntry p.number ≠ none ∨
        s.store.contentAt p.project Path.documentEntry p.number ≠ none)) ∧
    (∀ now project user requested number,
      publishable s.store project user requested = .ok number →
        (s.pin now project user number).1 ≠ .error .taken) ∧
    ∀ p ∈ s.store.publications,
      (∃ q ∈ t.store.publications,
        q.project = p.project ∧ q.publicId = p.publicId ∧ q.user = p.user) ∧
      ((∀ e ∈ later, ¬ Publishes e.2 p.project p.user) →
        ∀ (x x' : Surroundings) (r : Request), x'.settings = x.settings → x'.tools = x.tools →
          r.call? = some (.published p.publicId) → (exchange x' r t).1 = (exchange x r s).1) := by
  have hs := upholds_exchanges (hosting_start settings ids) hbefore
  have ho := owned_exchanges (owned_start settings ids) before
  have ht := upholds_exchanges hs.hosting hlater
  refine ⟨hs.hosting.distinct, fun p hp => ?_, fun now project user requested number hn => ?_,
    fun p hp => ⟨?_, fun hm x x' r hx hx' hr => ?_⟩⟩
  · have hflavour := Option.isSome_iff_ne_none.1 (hs.hosting.composable p hp)
    refine ⟨ho.store.publications p hp, hs.hosting.numbered p hp, hflavour, ?_⟩
    exact not_and_or.1 fun hnothing => hflavour (flavour?_eq_none.2 hnothing)
  · refine hs.hosting.pin_ne_taken ho.store ?_ (ho.store.belongsTo_of_publishable hn) now number
    rw [hs.sequence_eq]
    exact hids
  · obtain ⟨q, hq, hproject, hid, huser, -⟩ := ht.keeps p hp
    exact ⟨q, hq, hproject, hid, huser⟩
  · refine reply_published_eq hs.hosting ht hp ?_ hr hx hx'
    rintro ⟨e, he, hpublishes⟩
    exact hm e he hpublishes

/-- Surroundings in which nothing fails but the building of components. -/
def stillness : Surroundings where
  settings := {}
  read := Markup.Outline.ofMarkup
  tools := { build := fun _ => .error .unreadable, render := fun _ => .error .unreadable }
  now := 0

def pageSaying (word : String) : String := "<html><head></head><body>" ++ word

def saveOfPage (word : String) : Request where
  method := "POST"
  target := "/api/projects/shop/files"
  user := some "ann"
  body := "\x7b\"destination\": \"landing/index.html\", \"content\": \"" ++ pageSaying word ++ "\"\x7d"

def publishOfShop : Request where
  method := "POST"
  target := "/api/publish"
  user := some "ann"
  body := "\x7b\"project_id\": \"shop\"\x7d"

def visit : Request :=
  { method := "GET", target := "/api/published/a", user := none, body := "" }

/-- Identifiers that are longer and longer. -/
def lengthening : IdSupply := { sequence := fun n => String.ofList (List.replicate n 'a') }

def opening : List (Surroundings × Request) :=
  [(stillness, saveOfPage "old"), (stillness, publishOfShop)]

def revision : List (Surroundings × Request) := [(stillness, saveOfPage "new")]

theorem lengthening_injective : Function.Injective lengthening.sequence := by
  intro m n h
  simpa [lengthening] using congrArg String.length h

def shopFront : Publication where
  publicId := "a"
  project := "shop"
  user := "ann"
  number := 1
  createdAt := 0
  updatedAt := 0

/-- A page that is saved again after it was published is served as it was. -/
theorem exchanges_published_revision :
    let s := exchanges opening (start {} lengthening)
    let t := exchanges revision s
    shopFront ∈ s.store.publications ∧ s.store.BelongsTo "shop" "ann" ∧
      (t.store.latest? "shop").map Revision.number = some 2 ∧
      (exchange stillness visit t).1 = (exchange stillness visit s).1 := by
  have hcurrent : ∀ r s, IsPlausible stillness r s := fun _ _ => isPlausible_of_current rfl
  have hbefore : ArePlausible opening (start {} lengthening) := ⟨hcurrent _ _, hcurrent _ _, trivial⟩
  obtain ⟨-, hstanding, -, hserved⟩ := exchanges_published {} lengthening lengthening_injective opening
    revision hbefore ⟨hcurrent _ _, trivial⟩
  have hfront : shopFront ∈ (exchanges opening (start {} lengthening)).store.publications := by
    decide +kernel
  refine ⟨hfront, (hstanding _ hfront).1, by decide +kernel, ?_⟩
  refine (hserved _ hfront).2 (fun e he => ?_) stillness stillness visit rfl rfl (by decide +kernel)
  have hsave : (saveOfPage "new").call? =
      some (.save "shop" "landing/index.html" (pageSaying "new")) := by
    decide +kernel
  rintro ⟨-, number, hpublish⟩
  rw [List.mem_singleton.1 he] at hpublish
  cases hsave.symm.trans hpublish

end VersionedSite.Http
