import VersionedSite.Http.Exchange
import VersionedSite.Proofs.Service.Composition
import VersionedSite.Proofs.Service.Outcome

/-!
# Requests and calls

A request is read as a call or it is not (`Request.call?`). One that is not read as a call leaves
everything as it is, and unless it is sent elsewhere it is refused (`respond_of_call?_eq_none`). One that
is, is answered as the call (`respond_of_call?`). All that a request can leave behind is what composing
leaves, or what a save or a publication of its sender leaves (`exchange_leaves`).
-/

namespace VersionedSite.Http

open Service Program

/-- The body that a request brings to an endpoint. -/
def Request.bodyFor (r : Request) (endpoint : Endpoint) : Except BodyFault Body :=
  if endpoint.takesBody then readBody r.body else .ok .missing

/-- The call that a request is read as, if it leads somewhere and nothing is wrong with it. -/
def Request.call? (r : Request) : Option Call :=
  let address := Address.ofText r.target
  match route r.method address.path with
  | .found endpoint =>
    match r.bodyFor endpoint with
    | .ok body => (Call.read address body endpoint).toOption
    | .error _ => none
  | _ => none

/-- The project that a call is about. -/
def Call.project? : Call → Option String
  | save project .. => some project
  | saveRough project .. => some project
  | retry project => some project
  | context project .. => some project
  | latest project => some project
  | listing project _ => some project
  | file project .. => some project
  | preview project _ => some project
  | bundle project .. => some project
  | shell project _ => some project
  | publish project _ => some project
  | publication project => some project
  | published _ => none
  | health => none
  | about => none
  | manual _ => none

/-- The token that a call brings. -/
def Call.token? : Call → Option String
  | bundle _ _ token => token
  | _ => none

variable {x : Surroundings} {r : Request} {s : Service}

theorem Surroundings.ends_run {α : Type} (x : Surroundings) (p : Program α) (s : Service) :
    p.Ends (.ofSettings x.settings x.now) (fun _ => True) s (x.run p s).1 (x.run p s).2 :=
  ends_of_run (x.faults.atTime x.now) fun _ _ => trivial

/-! ## Replies -/

theorem status_ofError_ge (e : SiteError) : 400 ≤ (Reply.ofError e).status := by
  rw [Reply.status_ofError]
  exact (SiteError.Kind.status_pos e.kind).1

/-- Who asks for the head only is told the same status, and changes as much. -/
theorem exchange_eq (x : Surroundings) (r : Request) (s : Service) :
    (exchange x r s).1.status = (respond x r s).1.status ∧ (exchange x r s).2 = (respond x r s).2 := by
  unfold exchange
  generalize respond x r s = response
  obtain ⟨reply, t⟩ := response
  refine ⟨?_, rfl⟩
  dsimp only
  split <;> rfl

theorem exchange_fst (x : Surroundings) (r : Request) (s : Service) :
    (exchange x r s).1 =
      if r.method = "HEAD" then (respond x r s).1.headOnly else (respond x r s).1 := by
  unfold exchange
  generalize respond x r s = response
  rfl

/-! ## Reading -/

theorem status_correction_ge (body : Body) (found : List Input.Finding) :
    400 ≤ (correction body found).status := by
  unfold correction
  split
  · exact (by decide : 400 ≤ 422)
  · exact (by decide : 400 ≤ 500)

theorem serve_eq {endpoint : Endpoint} {body : Body} (h : r.bodyFor endpoint = .ok body)
    (address : Address) :
    serve x r address s endpoint =
      if endpoint.needsIdentity && (identity r.user).isNone then (unidentified, s)
      else
        match Call.read address body endpoint with
        | .error found => (correction body found, s)
        | .ok call => answer x (identity r.user) s call := by
  unfold Request.bodyFor at h
  unfold serve
  generalize (if endpoint.takesBody then readBody r.body else .ok .missing) = read at h ⊢
  subst h
  rfl

theorem respond_found {endpoint : Endpoint}
    (h : route r.method (Address.ofText r.target).path = .found endpoint) :
    respond x r s = serve x r (Address.ofText r.target) s endpoint := by
  rw [respond, h]

/-- A request that is read as a call leads to an endpoint that its values are read for. -/
theorem exists_endpoint_of_call? {call : Call} (h : r.call? = some call) :
    ∃ endpoint body, route r.method (Address.ofText r.target).path = .found endpoint ∧
      r.bodyFor endpoint = .ok body ∧ Call.read (Address.ofText r.target) body endpoint = .ok call := by
  unfold Request.call? at h
  dsimp only at h
  split at h
  · rename_i endpoint hroute
    split at h
    · rename_i body hbody
      cases hread : Call.read (Address.ofText r.target) body endpoint with
      | error found =>
        rw [hread] at h
        cases h
      | ok read =>
        rw [hread] at h
        cases h
        exact ⟨endpoint, body, hroute, hbody, hread⟩
    · cases h
  · cases h

/-- A request that is read as a call is always answered as the call, unless it has to say who sends
it. -/
theorem respond_of_call? {call : Call} (h : r.call? = some call) :
    (∀ x s, respond x r s = answer x (identity r.user) s call) ∨
      identity r.user = none ∧ ∀ x s, respond x r s = (unidentified, s) := by
  obtain ⟨endpoint, body, hroute, hbody, hread⟩ := exists_endpoint_of_call? h
  by_cases hneeds : (endpoint.needsIdentity && (identity r.user).isNone) = true
  · refine .inr ⟨?_, fun x s => ?_⟩
    · rw [Bool.and_eq_true, Option.isNone_iff_eq_none] at hneeds
      exact hneeds.2
    · rw [respond_found hroute, serve_eq hbody, if_pos hneeds]
  · refine .inl fun x s => ?_
    rw [respond_found hroute, serve_eq hbody, if_neg hneeds, hread]

/-- A request that is not read as a call is refused, unless it is sent elsewhere. -/
theorem respond_of_call?_eq_none (h : r.call? = none) :
    (respond x r s).2 = s ∧
      (route r.method (Address.ofText r.target).path ≠ .elsewhere →
        400 ≤ (respond x r s).1.status) := by
  cases hroute : route r.method (Address.ofText r.target).path with
  | unknown =>
    rw [respond, hroute]
    exact ⟨rfl, fun _ => (by decide : 400 ≤ 404)⟩
  | elsewhere =>
    rw [respond, hroute]
    exact ⟨rfl, fun hne => absurd rfl hne⟩
  | wrongMethod =>
    rw [respond, hroute]
    exact ⟨rfl, fun _ => (by decide : 400 ≤ 405)⟩
  | found endpoint =>
    rw [respond_found hroute]
    cases hbody : r.bodyFor endpoint with
    | error fault =>
      unfold Request.bodyFor at hbody
      rw [serve, hbody]
      cases fault with
      | malformed offset => exact ⟨rfl, fun _ => (by decide : 400 ≤ 422)⟩
      | unreadable => exact ⟨rfl, fun _ => (by decide : 400 ≤ 400)⟩
    | ok body =>
      rw [serve_eq hbody]
      split
      · exact ⟨rfl, fun _ => (by decide : 400 ≤ 401)⟩
      · cases hread : Call.read (Address.ofText r.target) body endpoint with
        | error found => exact ⟨rfl, fun _ => status_correction_ge body found⟩
        | ok call =>
          have hcall : r.call? = some call := by
            simp [Request.call?, hroute, hbody, hread, Except.toOption]
          cases hcall.symm.trans h

/-! ## Getting -/

/-- Whether a request is to get what is at its target, for a user or for nobody in particular. -/
structure Gets (r : Request) (viewer : Option String) : Prop where
  method_eq : r.method = "GET"
  identity_eq : identity r.user = viewer

theorem Gets.exchange_fst {viewer : Option String} (h : Gets r viewer) (x : Surroundings) (s : Service) :
    (exchange x r s).1 = (respond x r s).1 := by
  rw [Http.exchange_fst, if_neg (by rw [h.method_eq]; decide)]

theorem Gets.respond_eq {user : String} (h : Gets r (some user)) {call : Call} (hcall : r.call? = some call)
    (x : Surroundings) (s : Service) : respond x r s = answerFor x user s call := by
  obtain hr | ⟨hnobody, -⟩ := respond_of_call? hcall
  · rw [hr, h.identity_eq, answer]
  · cases h.identity_eq.symm.trans hnobody

/-! ## What is left -/

/-- What a request can leave of a service. Nothing is left but what was there, unless something is composed,
or the sender of the request saves or publishes something. -/
inductive Leaves (x : Surroundings) (r : Request) (s : Service) : Service → Prop where
  | composed {t : Service} (ht : ∃ modules count, t = { s with modules, ids := s.ids.skip count }) :
      Leaves x r s t
  | saved {project user destination content : String} (hu : identity r.user = some user)
      (hcall : r.call? = some (.save project destination content)) :
      Leaves x r s (x.run (saveOwned x.read x.settings project user destination content) s).2
  | savedRough {project user : String} {destination content : Text.Points}
      (hu : identity r.user = some user)
      (hcall : r.call? = some (.saveRough project destination content)) :
      Leaves x r s (x.run (saveRough x.read x.settings project user destination content) s).2
  | retried {project user : String} (hu : identity r.user = some user)
      (hcall : r.call? = some (.retry project)) :
      Leaves x r s (x.run (retryFor x.settings project user) s).2
  | pinned {project user : String} {requested : Option Int} {number : Int}
      {a : Except WriteFault Publication} {t : Service} (hu : identity r.user = some user)
      (hcall : r.call? = some (.publish project requested))
      (hn : publishable s.store project user requested = .ok number)
      (hp : s.pin x.now project user number = (a, t)) : Leaves x r s t

theorem Leaves.refl (x : Surroundings) (r : Request) (s : Service) : Leaves x r s s :=
  .composed ⟨s.modules, 0, rfl⟩

theorem leaves_answerFor {user : String} {call : Call} (hu : identity r.user = some user)
    (hcall : r.call? = some call) : Leaves x r s (answerFor x user s call).2 := by
  cases call with
  | save project destination content => exact .saved hu hcall
  | saveRough project destination content => exact .savedRough hu hcall
  | retry project => exact .retried hu hcall
  | preview project number =>
    unfold answerFor
    dsimp only
    split
    · exact .refl x r s
    · exact .composed (documentAt_snd _ _ s _ _)
  | publish project number =>
    unfold answerFor
    dsimp only
    split
    · exact .refl x r s
    · rename_i n hn
      split <;> rename_i hp <;> exact .pinned hu hcall hn hp
  | published publicId => exact .composed (publishedDocument_snd _ _ s _)
  | _ => exact .refl x r s

/-- One request leaves what requests can leave. -/
theorem exchange_leaves (x : Surroundings) (r : Request) (s : Service) :
    Leaves x r s (exchange x r s).2 := by
  rw [(exchange_eq x r s).2]
  cases hcall : r.call? with
  | none =>
    rw [(respond_of_call?_eq_none hcall).1]
    exact .refl x r s
  | some call =>
    obtain hr | ⟨-, hr⟩ := respond_of_call? hcall <;> rw [hr]
    · cases hu : identity r.user with
      | some user => exact leaves_answerFor hu hcall
      | none =>
        cases call with
        | published publicId => exact .composed (publishedDocument_snd _ _ s _)
        | _ => exact .refl x r s
    · exact .refl x r s

end VersionedSite.Http
