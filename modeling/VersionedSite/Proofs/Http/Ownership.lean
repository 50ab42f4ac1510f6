import VersionedSite.Proofs.Http.Exchange
import VersionedSite.Proofs.Service.Ownership

/-!
# Requests about somebody else's project

Whatever is requested, by whomever and with whatever failing, all revisions of a project are one user's,
and who is not that user is refused whatever is asked about the project and changes nothing
(`exchanges_owned`). The retry is refused because nothing is kept for the user who asks.

* `owned_exchange`: what one request keeps.
* `refused_exchange`: a request about somebody else's project.
-/

namespace VersionedSite.Http

open Service Program Store

/-- What requests leave of a service, each in its own surroundings and all one after another. -/
def exchanges (requests : List (Surroundings × Request)) (s : Service) : Service :=
  requests.foldl (fun s e => (exchange e.1 e.2 s).2) s

theorem exchanges_cons (e : Surroundings × Request) (requests : List (Surroundings × Request))
    (s : Service) : exchanges (e :: requests) s = exchanges requests (exchange e.1 e.2 s).2 := by
  rw [exchanges, List.foldl_cons, ← exchanges]

variable {x : Surroundings} {r : Request} {s : Service} {project owner user : String}

/-! ## Keeping owners -/

/-- One request leaves every project with its owner. -/
theorem owned_exchange (h : s.Owned) (x : Surroundings) (r : Request) : (exchange x r s).2.Owned := by
  have hleaves := exchange_leaves x r s
  generalize (exchange x r s).2 = t at hleaves ⊢
  cases hleaves with
  | composed ht =>
    obtain ⟨modules, count, rfl⟩ := ht
    exact ⟨h.store, h.pending⟩
  | saved => exact h.save (x.ends_run _ s)
  | savedRough => exact h.saveRough (x.ends_run _ s)
  | retried => exact h.retry (x.ends_run _ s)
  | pinned _ _ hn hp => exact h.pin (h.store.belongsTo_of_publishable hn) hp

theorem owned_exchanges (h : s.Owned) (requests : List (Surroundings × Request)) :
    (exchanges requests s).Owned := by
  induction requests generalizing s with
  | nil => exact h
  | cons e requests ih =>
    rw [exchanges_cons]
    exact ih (owned_exchange h e.1 e.2)

/-! ## Foreign projects -/

/-- A refusal that leaves everything as it is. -/
def Refused (s : Service) (response : Reply × Service) : Prop :=
  400 ≤ response.1.status ∧ response.2 = s

theorem refused_ofExcept {α : Type} (f : α → Reply) {a : Except SiteError α} {e : SiteError}
    (h : a = .error e) : Refused s (.ofExcept f a, s) := by
  rw [h]
  exact ⟨status_ofError_ge e, rfl⟩

theorem refused_unidentified : Refused s (unidentified, s) := ⟨(by decide : 400 ≤ 401), rfl⟩

theorem refused_run {α : Type} (f : α → Reply) (p : Program (Except SiteError α))
    (h : ∀ a t, p.Ends (.ofSettings x.settings x.now) (fun _ => True) s a t →
      (∃ e, a = .error e) ∧ t = s) :
    Refused s (.ofExcept f (x.run p s).1, (x.run p s).2) := by
  obtain ⟨⟨e, he⟩, ht⟩ := h _ _ (x.ends_run p s)
  rw [he]
  exact ⟨status_ofError_ge e, ht⟩

section Foreign

variable (h : s.Owned) (hb : s.store.BelongsTo project owner) (hu : user ≠ owner)

include hb hu

theorem refused_save (destination content : String) :
    Refused s (answerFor x user s (.save project destination content)) := by
  refine refused_run _ (saveOwned x.read x.settings project user destination content) fun a t he => ?_
  obtain ⟨e, -, ha, ht⟩ | ⟨hn, -⟩ := saveOwned_ends he
  · exact ⟨⟨e, ha⟩, ht⟩
  · cases hn.symm.trans (hb.denial?_eq hu)

theorem refused_saveRough (destination content : Text.Points) :
    Refused s (answerFor x user s (.saveRough project destination content)) := by
  refine refused_run _ (saveRough x.read x.settings project user destination content) fun a t he => ?_
  obtain ⟨e, -, ha, ht⟩ | ⟨hn, -⟩ := saveRough_ends he
  · exact ⟨⟨e, ha⟩, ht⟩
  · cases hn.symm.trans (hb.denial?_eq hu)

include h

/-- A retry asks nowhere who owns the project. What stops it is that nothing is kept for the user. -/
theorem refused_retry : Refused s (answerFor x user s (.retry project)) := by
  refine refused_run _ (retryFor x.settings project user) fun a t he => ?_
  have hget := h.get_eq hb hu (Terms.ofSettings x.settings x.now).pendingExpiry
    (Terms.ofSettings x.settings x.now).now
  have hended := retryFor_ends he
  rw [hget] at hended
  obtain ⟨-, ha, ht⟩ | ⟨save, hsave, -⟩ := hended
  · exact ⟨⟨_, ha⟩, ht⟩
  · cases hsave

theorem refused_answerFor {call : Call} (hp : call.project? = some project) :
    Refused s (answerFor x user s call) := by
  have hlatest := hb.ownedLatest_eq hu
  have hnumber := hb.ownedNumber_eq hu
  cases call <;> cases hp
  case save destination content => exact refused_save hb hu destination content
  case saveRough destination content => exact refused_saveRough hb hu destination content
  case retry => exact refused_retry h hb hu
  case context path isModification =>
    refine refused_ofExcept (e := .foreignProject project) _ ?_
    rw [ownedContext, hb.denial?_eq hu]
  case latest => exact refused_ofExcept _ hlatest
  case listing revision => exact refused_ofExcept _ (hnumber revision)
  case file path revision =>
    refine refused_ofExcept (e := .foreignProject project) _ ?_
    rw [hnumber]
    rfl
  case preview number =>
    rw [answerFor, hnumber]
    exact ⟨status_ofError_ge _, rfl⟩
  case bundle number token =>
    refine refused_ofExcept (e := .foreignProject project) _ ?_
    rw [moduleFor, hnumber]
    rfl
  case shell number => exact refused_ofExcept _ (hnumber (some number))
  case publish number =>
    have hpublishable : publishable s.store project user number = .error (.foreignProject project) := by
      rw [publishable, hnumber]
      rfl
    rw [answerFor, hpublishable]
    exact ⟨status_ofError_ge _, rfl⟩
  case publication =>
    refine refused_ofExcept (e := .notPublished project) _ ?_
    rw [publicationFor, h.store.publicationOf?_eq_none hb hu]

end Foreign

/-- Without a token, nobody in particular gets anything of a project. -/
theorem refused_answerAnyone {call : Call} (hp : call.project? = some project)
    (ht : call.token? = none) : Refused s (answerAnyone x s call) := by
  cases call <;> cases hp
  case bundle number token =>
    cases ht
    exact ⟨(by decide : 400 ≤ 401), rfl⟩
  all_goals exact refused_unidentified

/-- A request about a project by anybody but its owner, without a token, is refused. -/
theorem refused_exchange (h : s.Owned) (hb : s.store.BelongsTo project owner)
    (hu : identity r.user ≠ some owner)
    (hroute : route r.method (Address.ofText r.target).path ≠ .elsewhere)
    (hcall : ∀ call, r.call? = some call → call.project? = some project ∧ call.token? = none) :
    Refused s (exchange x r s) := by
  rw [Refused, (exchange_eq x r s).1, (exchange_eq x r s).2, ← Refused]
  cases hread : r.call? with
  | none =>
    obtain ⟨ht, hs⟩ := respond_of_call?_eq_none (x := x) (s := s) hread
    exact ⟨hs hroute, ht⟩
  | some call =>
    obtain ⟨hp, ht⟩ := hcall call hread
    obtain hr | ⟨-, hr⟩ := respond_of_call? hread <;> rw [hr]
    · cases hi : identity r.user with
      | none => exact refused_answerAnyone hp ht
      | some user =>
        rw [hi] at hu
        exact refused_answerFor h hb (fun he => hu (congrArg some he)) hp
    · exact refused_unidentified

/-! ## Requests from the start on -/

/-- After any requests from the start on, all revisions of a project are one user's, and what is kept was
to be written by that user; whoever else asks for anything about the project without a token is refused
and changes nothing. A request that is sent elsewhere is not answered yet. -/
theorem exchanges_owned (settings : Settings) (ids : IdSupply)
    (requests : List (Surroundings × Request)) :
    let s := exchanges requests (start settings ids)
    (∀ r ∈ s.store.revisions, ∀ r' ∈ s.store.revisions,
      r.project = r'.project → r.user = r'.user) ∧
    (∀ e ∈ s.pending.entries, s.store.BelongsTo e.1.2 e.1.1) ∧
    ∀ project owner, s.store.BelongsTo project owner →
      ∀ (x : Surroundings) (r : Request), identity r.user ≠ some owner →
        route r.method (Address.ofText r.target).path ≠ .elsewhere →
        (∀ call, r.call? = some call → call.project? = some project ∧ call.token? = none) →
        Refused s (exchange x r s) := by
  have hempty : (start settings ids).Owned :=
    ⟨⟨by simp [start], by simp [start]⟩, by simp [start, OrderedMap.empty]⟩
  have h := owned_exchanges hempty requests
  refine ⟨fun r hr r' hr' hp => ?_, h.pending, fun project owner hb x r => refused_exchange h hb⟩
  exact ((h.store.revisions r' hr').openTo r hr hp)

/-- Surroundings in which nothing can be built and no version can be written. -/
def wreckage : Surroundings where
  settings := {}
  read := Markup.Outline.ofMarkup
  tools := { build := fun _ => .error .unreadable, render := fun _ => .error .unreadable }
  now := 0
  faults := { breaks := fun st => match st with | .insertVersion .. => true | _ => false }

def saveOfAnn : Request where
  method := "POST"
  target := "/api/projects/shop/files"
  user := some "ann"
  body := "\x7b\"destination\": \"pages/home.jsx\", \"content\": \"first\"\x7d"

def retryOfBob : Request :=
  { method := "POST", target := "/api/projects/shop/files/retry", user := some "bob", body := "" }

/-- A save that failed and is kept is not written for anybody else. -/
theorem exchanges_owned_retry :
    let s := exchanges [(wreckage, saveOfAnn)] (start {} { sequence := fun _ => "" })
    s.store.BelongsTo "shop" "ann" ∧ s.pending.contains ("ann", "shop") = true ∧
      Refused s (exchange wreckage retryOfBob s) := by
  obtain ⟨-, -, hforeign⟩ :=
    exchanges_owned {} { sequence := fun _ => "" } [(wreckage, saveOfAnn)]
  have hb : (exchanges [(wreckage, saveOfAnn)] (start {} { sequence := fun _ => "" })).store.BelongsTo
      "shop" "ann" := by
    decide +kernel
  refine ⟨hb, by decide +kernel, hforeign "shop" "ann" hb wreckage retryOfBob ?_ ?_ ?_⟩
  · decide +kernel
  · decide +kernel
  · have hcall : retryOfBob.call? = some (.retry "shop") := by decide +kernel
    intro call hc
    cases hcall.symm.trans hc
    exact ⟨rfl, rfl⟩

end VersionedSite.Http
