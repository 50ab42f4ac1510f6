import VersionedSite.Proofs.Http.Exchange
import VersionedSite.Proofs.Json.Reading

/-!
# What requests are read as

A call for a browser module is read from the texts of its path whatever stands in the body (`read_bundle`).
A request is read as a call for a shell only if it leads to one, and then names its project as the service
takes names (`call?_shell`).

* `readInt_toString`: a number is read back from its text.
* `Always.of_finish`: what holds of all that can be read, findings or not, holds of what is read.
-/

namespace VersionedSite

namespace Input

/-- A number that is not too long is read back from its text. -/
theorem readInt_toString {n : Int} (h : (Nat.toDigits 10 n.natAbs).length ≤ intDigitLimit) :
    readInt (.str (toString n)) = .ok n := by
  have hlength : ¬ (Nat.toDigits 10 n.natAbs).length > intDigitLimit := Nat.not_lt.2 h
  have hended : Json.EndsNumber [] := nofun
  have hwhole := Json.wholePart?_toDigits n.natAbs hended
  rw [List.append_nil] at hwhole
  have hplain : plainInt (toString n).toList = .ok n := by
    obtain ⟨hn, htext⟩ | ⟨hn, htext⟩ := Json.toString_cases n <;> rw [htext]
    · have hminus : ∀ rest, Nat.toDigits 10 n.natAbs ≠ '-' :: rest := fun rest he =>
        absurd (Json.isDigit_of_mem_toDigits (he ▸ List.mem_cons_self)) (by decide)
      unfold plainInt
      split
      rename_i negative body hsign
      split at hsign
      · rename_i heq
        exact absurd heq (hminus _)
      · cases hsign
        simp only [hwhole, if_neg hlength, Json.digitsValue_toDigits]
        exact congrArg Except.ok hn.symm
    · simp only [plainInt, hwhole, if_neg hlength, Json.digitsValue_toDigits]
      exact congrArg Except.ok hn.symm
  rw [readInt, intOfText, hplain]

namespace Collect

variable {α β : Type} {P : α → Prop} {a : α}

/-- Whether whatever is read, with or without findings, meets a condition. -/
def Always (P : α → Prop) (c : Collect α) : Prop := ∀ found, P (c.run found).1

theorem always_pure (h : P a) : Always P (pure a) := fun _ => h

theorem always_bind {f : β → Collect α} (h : ∀ b, Always P (f b)) (c : Collect β) : Always P (c >>= f) :=
  fun _ => h _ _

theorem finish_eq_ok {c : Collect α} (h : c.finish = .ok a) : c.run [] = (a, []) := by
  unfold finish at h
  generalize c.run [] = r at h ⊢
  obtain ⟨b, found⟩ := r
  cases found with
  | nil => rw [Except.ok.inj h]
  | cons => cases h

theorem Always.of_finish {c : Collect α} (h : Always P c) (hc : c.finish = .ok a) : P a := by
  have hrun := h []
  rwa [finish_eq_ok hc] at hrun

theorem snd_given_ne_nil (place : List Step) (read : PlacedReader α) (default : α) (j : Json)
    {found : List Finding} (h : found ≠ []) : ((given place read default j).run found).2 ≠ [] := by
  unfold given
  cases read place j with
  | ok a => exact h
  | error more => exact List.append_ne_nil_of_left_ne_nil h more

end Collect

end Input

namespace Http

open Input.Collect

variable {address : Address} {body : Body} {endpoint : Endpoint} {r : Request} {project : String}
  {n : Int}

/-! ## Modules -/

theorem read_bundle (address : Address) (body : Body) (hproject : project.length ≤ projectLimit)
    (hn : (Nat.toDigits 10 n.natAbs).length ≤ Input.intDigitLimit) :
    Call.read address body (.bundle project (toString n)) =
      .ok (.bundle project n (address.lookup "token")) := by
  have hp : Call.projectOf project = pure project := given_single _ _ (Input.readShortText_str hproject)
  have hnumber : Call.numberOf (toString n) = pure n := given_single _ _ (Input.readInt_toString hn)
  show (Call.projectOf project >>= fun p => Call.numberOf (toString n) >>= fun n =>
    pure (Call.bundle p n (address.lookup "token"))).finish = _
  rw [hp, hnumber]
  rfl

/-! ## Shells -/

theorem saveOf_ne_shell (p : String) (destination content : Text.Points) :
    Call.saveOf p destination content ≠ .shell project n := by
  unfold Call.saveOf
  split <;> exact nofun

theorem always_members {P : Call → Prop} {read : List (String × Json) → Input.Collect Call}
    (body : Body) (hread : ∀ m, Always P (read m)) (hhealth : P .health) :
    Always P (Call.members body read) := by
  unfold Call.members
  split
  · exact hread _
  all_goals exact always_bind (fun _ => always_pure hhealth) _

/-- Only the endpoint of shells is read as a call for one. -/
theorem always_ne_shell (address : Address) (body : Body) (h : ∀ p text, endpoint ≠ .shell p text) :
    Always (· ≠ .shell project n) (Call.collect address body endpoint) := by
  cases endpoint with
  | shell p text => exact absurd rfl (h p text)
  | save p =>
    refine always_bind (fun _ => always_members body (fun m => ?_) nofun) _
    repeat' refine always_bind (fun _ => ?_) _
    exact always_pure (saveOf_ne_shell _ _ _)
  | publish =>
    refine always_members body (fun m => ?_) nofun
    repeat' refine always_bind (fun _ => ?_) _
    exact always_pure nofun
  | _ =>
    repeat' refine always_bind (fun _ => ?_) _
    exact always_pure nofun

theorem read_shell (h : Call.read address body endpoint = .ok (.shell project n)) :
    ∃ text, endpoint = .shell project text ∧ project.length ≤ projectLimit := by
  obtain ⟨p, text, rfl⟩ : ∃ p text, endpoint = .shell p text := by
    by_contra hother
    push Not at hother
    exact (always_ne_shell address body hother).of_finish h rfl
  have hcollect : (Call.projectOf p >>= fun p => Call.numberOf text >>= fun n =>
      pure (Call.shell p n)).finish = .ok (.shell project n) := h
  by_cases hlength : p.length ≤ projectLimit
  · have hp : Call.projectOf p = pure p := given_single _ _ (Input.readShortText_str hlength)
    rw [hp, pure_bind] at hcollect
    have hcall : Always (fun call => ∀ q m, call = .shell q m → q = p)
        (Call.numberOf text >>= fun n => pure (Call.shell p n)) :=
      always_bind (fun n => always_pure fun q m he => (Call.shell.inj he).1.symm) _
    rw [hcall.of_finish hcollect project n rfl]
    exact ⟨text, rfl, hlength⟩
  · have hlong : Input.readShortText projectLimit (.str p) = .error .textTooLong := by
      simp [Input.readShortText, Input.readText, Except.bind, hlength]
    have hfound : ((Call.projectOf p).run []).2 ≠ [] := by
      unfold Call.projectOf Call.ofPath given readProject Input.single
      rw [hlong]
      exact List.cons_ne_nil _ []
    have hmore : ((Call.numberOf text).run ((Call.projectOf p).run []).2).2 ≠ [] :=
      snd_given_ne_nil _ _ _ _ hfound
    exact absurd (congrArg Prod.snd (finish_eq_ok hcollect)) hmore

/-- A call for a shell names a project that the service takes names like. -/
theorem call?_shell (h : r.call? = some (.shell project n)) :
    project ≠ "" ∧ project.length ≤ projectLimit := by
  obtain ⟨endpoint, body, hroute, -, hread⟩ := exists_endpoint_of_call? h
  obtain ⟨text, rfl, hlength⟩ := read_shell hread
  have htexts := (List.mem_filter.1 (endpoints_ne_nil_of_found hroute)).2
  exact ⟨of_decide_eq_true (List.all_eq_true.1 htexts project List.mem_cons_self), hlength⟩

end Http

end VersionedSite
