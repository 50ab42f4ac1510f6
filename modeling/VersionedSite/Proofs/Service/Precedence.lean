import VersionedSite.Proofs.PendingSaves.Lookup
import VersionedSite.Proofs.Service.Repetition

/-!
# Which save shows

Saves and retries of one user on one project, one after another, with writes that fail wherever they may.
What is seen of a path in the end is what was stored there last. That is what the latest of the saves
submitted that something was stored for was to write, unless a retry has overtaken a save: it repeats the
last save that failed in its write, and if another one of the same path has been successful since, that
one is the later of the two and shows no more (`newest_iff`).

* `Ledger`: which saves have been submitted, which one failed last, and what was stored for which.
* `savedSince_iff`, `overtaken_iff`: the ledger told by the events.
* `booked_of_course`: what is kept and what is seen, told by the ledger.
-/

namespace VersionedSite.Service

open Program Store
open Markup.Outline (ofMarkup)

/-! ## Events -/

namespace Event

/-- Whether an event is a save. -/
def isSave : Event → Bool
  | call ⟨.save .., _, _⟩ _ => true
  | _ => false

/-- What an event stores. -/
def stored? : Event → Option VisibleFile
  | call _ (.ok saved) => some saved.visible
  | _ => none

/-- Whether an event fails in its write. -/
def failsWrite : Event → Bool
  | call _ (.error (.writeFailed _)) => true
  | _ => false

/-- Whether an event stores something at a path. -/
def StoresAt (path : String) (e : Event) : Prop := ∃ f, e.stored? = some f ∧ f.path = path

/-- Whether an event is a call of a user on a project, or a look through what is kept. -/
def IsOf (user project : String) : Event → Prop
  | call o _ => o.call = .retry project user ∨
    ∃ destination content, o.call = .save project user destination content
  | sweep _ => True
  | aside _ => False

end Event

/-- Whether a save has stored something at a path since the last save that failed in its write. -/
def SavedSince (path : String) (events : List Event) : Prop :=
  ∃ earlier save later, events = earlier ++ save :: later ∧ save.isSave = true ∧ save.StoresAt path ∧
    ∀ e ∈ later, ¬ (e.isSave = true ∧ e.failsWrite = true)

/-- Whether what was stored last at a path was stored by a retry, and a save had stored something there since
the last save that failed in its write. -/
def Overtaken (path : String) (events : List Event) : Prop :=
  ∃ earlier retry later, events = earlier ++ retry :: later ∧ retry.isSave = false ∧
    retry.StoresAt path ∧ SavedSince path earlier ∧ ∀ e ∈ later, ¬ e.StoresAt path

/-! ## The ledger -/

/-- A save as it was submitted. -/
structure Request where
  /-- How many saves had been submitted before. -/
  rank : Nat
  destination : String
  content : String
  deriving DecidableEq, Repr

/-- What has become of the saves that were submitted. -/
structure Ledger where
  /-- How many saves have been submitted. -/
  submitted : Nat := 0
  /-- The last save that failed in its write. -/
  failed : Option Request := none
  /-- What was stored and for which save, oldest first. -/
  stored : List (Request × VisibleFile) := []
  deriving Repr

namespace Ledger

/-- The save that an event is about: a retry is about the last one that failed in its write. -/
def request? (l : Ledger) : Event → Option Request
  | .call ⟨.save _ _ destination content, _, _⟩ _ => some { rank := l.submitted, destination, content }
  | .call ⟨.retry .., _, _⟩ _ => l.failed
  | .sweep _ | .aside _ => none

/-- What an event stores, with the save that it is about. -/
def entry? (l : Ledger) (e : Event) : Option (Request × VisibleFile) :=
  (l.request? e).bind fun r => e.stored?.map fun f => (r, f)

/-- The ledger with one more event. -/
def enter (l : Ledger) (e : Event) : Ledger where
  submitted := if e.isSave then l.submitted + 1 else l.submitted
  failed := if e.failsWrite then l.request? e else l.failed
  stored := l.stored ++ (l.entry? e).toList

/-- The ledger of some events. -/
def ofEvents (events : List Event) : Ledger := events.foldl enter {}

/-- What was stored at a path. -/
def storedAt (l : Ledger) (path : String) : List (Request × VisibleFile) :=
  l.stored.filter fun entry => entry.2.path = path

/-- Whether something was stored at a path for a later save than a given one. -/
def Surpasses (l : Ledger) (path : String) (r : Request) : Prop :=
  ∃ entry ∈ l.stored, entry.2.path = path ∧ r.rank < entry.1.rank

/-- Whether what is seen of a path was stored for the latest of the saves that something was stored for there;
nothing is seen if there is none. -/
def Newest (l : Ledger) (path : String) : Option VisibleFile → Prop
  | none => ∀ entry ∈ l.stored, entry.2.path ≠ path
  | some f => ∃ entry ∈ l.stored, entry.2 = f ∧ f.path = path ∧
    ∀ other ∈ l.stored, other.2.path = path → other.1.rank ≤ entry.1.rank

instance (l : Ledger) (path : String) (seen : Option VisibleFile) : Decidable (l.Newest path seen) := by
  cases seen <;> unfold Newest <;> infer_instance

end Ledger

variable {read : Markup.OutlineReader} {settings : Settings} {s t : Service} {events : List Event} {e : Event}
  {user project path : String} {l : Ledger} {r : Request} {f : VisibleFile}

/-- Where an event with a property is looked for with none of a kind behind it, it is the last one, or the last
one is not of that kind and it comes before. -/
theorem exists_last_concat {P : List Event → Event → Prop} {Q : Event → Prop} :
    (∃ earlier x later, events ++ [e] = earlier ++ x :: later ∧ P earlier x ∧ ∀ y ∈ later, ¬ Q y) ↔
      P events e ∨
        (¬ Q e ∧ ∃ earlier x later, events = earlier ++ x :: later ∧ P earlier x ∧ ∀ y ∈ later, ¬ Q y) := by
  constructor
  · rintro ⟨earlier, x, later, hevents, hx, hlater⟩
    obtain ⟨rfl, rfl, rfl⟩ | ⟨rest, rfl, rfl⟩ := concat_eq_append_cons.1 hevents
    · exact .inl hx
    · rw [List.forall_mem_append, List.forall_mem_singleton] at hlater
      exact .inr ⟨hlater.2, earlier, x, rest, rfl, hx, hlater.1⟩
  · rintro (hx | ⟨he, earlier, x, later, rfl, hx, hlater⟩)
    · exact ⟨events, e, [], rfl, hx, by simp⟩
    · refine ⟨earlier, x, later ++ [e], concat_eq_append_cons.2 (.inr ⟨later, rfl, rfl⟩), hx, ?_⟩
      exact List.forall_mem_append.2 ⟨hlater, List.forall_mem_singleton.2 he⟩

theorem savedSince_concat :
    SavedSince path (events ++ [e]) ↔ (e.isSave = true ∧ e.StoresAt path) ∨
      (¬ (e.isSave = true ∧ e.failsWrite = true) ∧ SavedSince path events) := by
  simpa only [SavedSince, and_assoc] using
    exists_last_concat (P := fun _ save => save.isSave = true ∧ save.StoresAt path)
      (Q := fun e => e.isSave = true ∧ e.failsWrite = true)

theorem overtaken_concat :
    Overtaken path (events ++ [e]) ↔
      (e.isSave = false ∧ e.StoresAt path ∧ SavedSince path events) ∨
      (¬ e.StoresAt path ∧ Overtaken path events) := by
  simpa only [Overtaken, and_assoc] using
    exists_last_concat
      (P := fun earlier retry => retry.isSave = false ∧ retry.StoresAt path ∧ SavedSince path earlier)
      (Q := fun e => e.StoresAt path)

namespace Ledger

theorem ofEvents_concat (events : List Event) (e : Event) :
    ofEvents (events ++ [e]) = (ofEvents events).enter e := by
  simp [ofEvents]

theorem request?_of_save {o : Occasion} {destination content : String}
    (h : o.call = .save project user destination content) (l : Ledger) (result : Except SiteError Saved) :
    l.request? (.call o result) = some { rank := l.submitted, destination, content } := by
  obtain ⟨call, now, faults⟩ := o
  cases h
  rfl

theorem request?_of_retry {o : Occasion} (h : o.call = .retry project user) (l : Ledger)
    (result : Except SiteError Saved) : l.request? (.call o result) = l.failed := by
  obtain ⟨call, now, faults⟩ := o
  cases h
  rfl

/-- An event is about a save that is being submitted, or about the last one that failed in its write. -/
theorem request?_cases (h : l.request? e = some r) :
    (e.isSave = true ∧ r.rank = l.submitted) ∨ (e.isSave = false ∧ l.failed = some r) := by
  match e with
  | .call ⟨.save .., _, _⟩ _ =>
    cases h
    exact .inl ⟨rfl, rfl⟩
  | .call ⟨.retry .., _, _⟩ _ => exact .inr ⟨rfl, h⟩

theorem exists_request? (l : Ledger) (h : e.isSave = true) : ∃ r, l.request? e = some r := by
  match e with
  | .call ⟨.save .., _, _⟩ _ => exact ⟨_, rfl⟩

theorem failed_enter_of_not_isSave (h : e.isSave = false) : (l.enter e).failed = l.failed := by
  match e with
  | .call ⟨.retry .., _, _⟩ _ => exact ite_self _
  | .sweep _ | .aside _ => rfl

theorem failed_enter_of_not_failsWrite (h : e.failsWrite = false) : (l.enter e).failed = l.failed := by
  simp [enter, h]

theorem failed_enter_of_failsWrite (h : e.failsWrite = true) : (l.enter e).failed = l.request? e := by
  simp [enter, h]

theorem entry?_eq_some {entry : Request × VisibleFile} :
    l.entry? e = some entry ↔ l.request? e = some entry.1 ∧ e.stored? = some entry.2 := by
  obtain ⟨r, f⟩ := entry
  unfold entry?
  cases l.request? e <;> cases e.stored? <;> simp

theorem mem_stored_enter {entry : Request × VisibleFile} :
    entry ∈ (l.enter e).stored ↔
      entry ∈ l.stored ∨ (l.request? e = some entry.1 ∧ e.stored? = some entry.2) := by
  rw [enter, List.mem_append, Option.mem_toList, entry?_eq_some]

/-- Whether all that is entered is of saves that have been submitted. -/
structure Bounded (l : Ledger) : Prop where
  failed_lt : ∀ r, l.failed = some r → r.rank < l.submitted
  stored_lt : ∀ entry ∈ l.stored, entry.1.rank < l.submitted

theorem Bounded.enter (h : l.Bounded) (e : Event) : (l.enter e).Bounded := by
  have hle : l.submitted ≤ (l.enter e).submitted := by
    unfold Ledger.enter
    dsimp only
    split <;> omega
  have hrequest : ∀ r, l.request? e = some r → r.rank < (l.enter e).submitted := by
    intro r hr
    obtain ⟨hsave, hrank⟩ | ⟨-, hfailed⟩ := request?_cases hr
    · simp [Ledger.enter, hsave, hrank]
    · exact (h.failed_lt r hfailed).trans_le hle
  constructor
  · intro r hr
    cases hfails : e.failsWrite with
    | true => exact hrequest r (failed_enter_of_failsWrite hfails ▸ hr)
    | false =>
      rw [failed_enter_of_not_failsWrite hfails] at hr
      exact (h.failed_lt r hr).trans_le hle
  · intro entry hentry
    rcases mem_stored_enter.1 hentry with hentry | ⟨hr, -⟩
    · exact (h.stored_lt entry hentry).trans_le hle
    · exact hrequest _ hr

theorem bounded_ofEvents (events : List Event) : (ofEvents events).Bounded := by
  induction events using List.reverseRecOn with
  | nil => exact ⟨fun r hr => (by cases hr), fun entry hentry => (by cases hentry)⟩
  | append_singleton events e ih =>
    rw [ofEvents_concat]
    exact ih.enter e

/-! ## What a retry overtakes -/

theorem stored?_of_failsWrite (h : e.failsWrite = true) : e.stored? = none := by
  match e with
  | .call _ (.error (.writeFailed _)) => rfl

section Surpasses

variable (hr : (l.enter e).failed = some r)

include hr

/-- A retry stores for the last save that failed, not for a later one. -/
theorem surpasses_enter_of_not_isSave (hsave : e.isSave = false) :
    (l.enter e).Surpasses path r ↔ l.Surpasses path r := by
  rw [failed_enter_of_not_isSave hsave] at hr
  refine exists_congr fun entry => and_congr_left fun ⟨_, hlt⟩ => ?_
  rw [mem_stored_enter, or_iff_left_iff_imp]
  rintro ⟨hrequest, -⟩
  obtain ⟨hsave', -⟩ | ⟨-, hfailed⟩ := request?_cases hrequest
  · cases hsave.symm.trans hsave'
  · cases hr.symm.trans hfailed
    exact absurd hlt (Nat.lt_irrefl _)

/-- A save that fails is the latest. -/
theorem not_surpasses_enter_of_failsWrite (hl : l.Bounded) (hsave : e.isSave = true)
    (hfails : e.failsWrite = true) : ¬ (l.enter e).Surpasses path r := by
  rintro ⟨entry, hentry, -, hlt⟩
  rw [failed_enter_of_failsWrite hfails] at hr
  rw [mem_stored_enter, stored?_of_failsWrite hfails] at hentry
  rcases hentry with hentry | ⟨-, hf⟩
  · have hle := hl.stored_lt entry hentry
    rcases request?_cases hr with ⟨-, hrank⟩ | ⟨hsave', -⟩
    · omega
    · cases hsave.symm.trans hsave'
  · cases hf

/-- A save that does not fail is later than the last one that did. -/
theorem surpasses_enter_of_isSave (hl : l.Bounded) (hsave : e.isSave = true)
    (hfails : e.failsWrite = false) :
    (l.enter e).Surpasses path r ↔ e.StoresAt path ∨ l.Surpasses path r := by
  rw [failed_enter_of_not_failsWrite hfails] at hr
  have hbehind := hl.failed_lt r hr
  obtain ⟨q, hq⟩ := exists_request? l hsave
  constructor
  · rintro ⟨entry, hentry, hpath, hlt⟩
    rcases mem_stored_enter.1 hentry with hentry | ⟨-, hf⟩
    · exact .inr ⟨entry, hentry, hpath, hlt⟩
    · exact .inl ⟨entry.2, hf, hpath⟩
  · rintro (⟨f, hf, hpath⟩ | ⟨entry, hentry, hpath, hlt⟩)
    · refine ⟨(q, f), mem_stored_enter.2 (.inr ⟨hq, hf⟩), hpath, ?_⟩
      rcases request?_cases hq with ⟨-, hrank⟩ | ⟨hsave', -⟩
      · show r.rank < q.rank
        omega
      · cases hsave.symm.trans hsave'
    · exact ⟨entry, mem_stored_enter.2 (.inl hentry), hpath, hlt⟩

end Surpasses

/-- What saves have stored since the last one failed is what was stored for later saves. -/
theorem savedSince_iff (hr : (ofEvents events).failed = some r) :
    SavedSince path events ↔ (ofEvents events).Surpasses path r := by
  induction events using List.reverseRecOn generalizing r with
  | nil => cases hr
  | append_singleton events e ih =>
    have hbounded := bounded_ofEvents events
    rw [ofEvents_concat] at hr ⊢
    rw [savedSince_concat]
    cases hsave : e.isSave with
    | false =>
      rw [surpasses_enter_of_not_isSave hr hsave, ← ih (failed_enter_of_not_isSave hsave ▸ hr)]
      simp
    | true =>
      cases hfails : e.failsWrite with
      | true =>
        have hstores : ¬ e.StoresAt path := fun ⟨f, hf, _⟩ => by
          cases (stored?_of_failsWrite hfails).symm.trans hf
        refine iff_of_false ?_ (not_surpasses_enter_of_failsWrite hr hbounded hsave hfails)
        simpa using hstores
      | false =>
        rw [surpasses_enter_of_isSave hr hbounded hsave hfails,
          ← ih (failed_enter_of_not_failsWrite hfails ▸ hr)]
        simp

end Ledger

/-- Whether every retry that stores something has a save to repeat that failed in its write. -/
inductive Accounted : List Event → Prop where
  | nil : Accounted []
  | concat {events : List Event} {e : Event} (h : Accounted events)
      (he : ∀ f, e.stored? = some f → ∃ r, (Ledger.ofEvents events).request? e = some r) :
      Accounted (events ++ [e])

namespace Ledger

theorem storedAt_enter_of_storesAt (hr : l.request? e = some r) (hf : e.stored? = some f)
    (hpath : f.path = path) : (l.enter e).storedAt path = l.storedAt path ++ [(r, f)] := by
  have hentry : l.entry? e = some (r, f) := entry?_eq_some.2 ⟨hr, hf⟩
  simp [storedAt, enter, hentry, hpath]

theorem storedAt_enter_of_not_storesAt (h : ¬ e.StoresAt path) :
    (l.enter e).storedAt path = l.storedAt path := by
  have hnone : (l.entry? e).toList.filter (fun entry => entry.2.path = path) = [] := by
    refine List.filter_eq_nil_iff.2 fun entry hentry => ?_
    rw [decide_eq_true_eq]
    exact fun hpath => h ⟨entry.2, (entry?_eq_some.1 (Option.mem_toList.1 hentry)).2, hpath⟩
  rw [storedAt, enter, List.filter_append, hnone, List.append_nil, storedAt]

theorem mem_storedAt {entry : Request × VisibleFile} :
    entry ∈ l.storedAt path ↔ entry ∈ l.stored ∧ entry.2.path = path := by
  rw [storedAt, List.mem_filter, decide_eq_true_eq]

/-- Whether what was stored last at a path was stored for an earlier save than something before it. -/
def Reversed (l : Ledger) (path : String) : Prop :=
  ∃ earlier r f, l.storedAt path = earlier ++ [(r, f)] ∧ ∃ entry ∈ earlier, r.rank < entry.1.rank

theorem reversed_enter (hr : l.request? e = some r) (hf : e.stored? = some f) (hpath : f.path = path) :
    (l.enter e).Reversed path ↔ l.Surpasses path r := by
  rw [Reversed, storedAt_enter_of_storesAt hr hf hpath]
  constructor
  · rintro ⟨earlier, q, g, hlast, entry, hentry, hlt⟩
    obtain ⟨rfl, hsame⟩ := List.append_inj' hlast rfl
    cases hsame
    obtain ⟨hentry, hpath⟩ := mem_storedAt.1 hentry
    exact ⟨entry, hentry, hpath, hlt⟩
  · rintro ⟨entry, hentry, hpath, hlt⟩
    exact ⟨l.storedAt path, r, f, rfl, entry, mem_storedAt.2 ⟨hentry, hpath⟩, hlt⟩

/-- A retry overtakes a save when it stores for an earlier one. -/
theorem overtaken_iff (h : Accounted events) :
    Overtaken path events ↔ (ofEvents events).Reversed path := by
  induction h with
  | nil =>
    refine iff_of_false ?_ ?_
    · rintro ⟨earlier, retry, later, hevents, -⟩
      simp at hevents
    · rintro ⟨earlier, r, f, hstored, -⟩
      simp [ofEvents, storedAt] at hstored
  | @concat events e h he ih =>
    rw [overtaken_concat, ofEvents_concat]
    by_cases hstores : e.StoresAt path
    · obtain ⟨f, hf, hpath⟩ := hstores
      obtain ⟨r, hr⟩ := he f hf
      have hstores : e.StoresAt path := ⟨f, hf, hpath⟩
      rw [reversed_enter hr hf hpath]
      simp only [hstores, true_and, not_true_eq_false, false_and, or_false]
      obtain ⟨hsave, hrank⟩ | ⟨hsave, hfailed⟩ := request?_cases hr
      · -- Nothing is later than a save that is being submitted.
        refine iff_of_false (by simp [hsave]) ?_
        rintro ⟨entry, hentry, -, hlt⟩
        have hle := (bounded_ofEvents events).stored_lt entry hentry
        omega
      · rw [savedSince_iff hfailed]
        simp [hsave]
    · rw [Reversed, storedAt_enter_of_not_storesAt hstores, ← Reversed, ← ih]
      simp [hstores]

/-- What was stored last at a path is what was stored for the latest save there, unless an order is reversed. -/
theorem newest_iff_not_reversed (hl : (l.stored.map Prod.snd).Nodup) :
    l.Newest path ((l.storedAt path).getLast?.map Prod.snd) ↔ ¬ l.Reversed path := by
  rcases List.eq_nil_or_concat' (l.storedAt path) with h | ⟨earlier, ⟨r, f⟩, h⟩
  · rw [h, Reversed, h]
    refine iff_of_true (fun entry hentry hpath => ?_) ?_
    · have hmem := mem_storedAt.2 ⟨hentry, hpath⟩
      rw [h] at hmem
      cases hmem
    · rintro ⟨earlier, r, f, hnil, -⟩
      simp at hnil
  · have hlast : (r, f) ∈ l.stored ∧ f.path = path := by
      have hmem : (r, f) ∈ l.storedAt path := by
        rw [h]
        exact List.mem_concat_self
      exact mem_storedAt.1 hmem
    rw [h, List.getLast?_concat, Option.map_some]
    constructor
    · rintro ⟨shown, hshown, hf, -, hnewest⟩ ⟨earlier', r', f', hreversed, entry, hentry, hlt⟩
      obtain ⟨rfl, hsame⟩ := List.append_inj' (h.symm.trans hreversed) rfl
      cases hsame
      -- No file was stored for two saves.
      obtain rfl : shown = (r, f) := List.inj_on_of_nodup_map hl hshown hlast.1 hf
      have hmem : entry ∈ l.storedAt path := by
        rw [h]
        exact List.mem_append_left _ hentry
      obtain ⟨hentry, hpath⟩ := mem_storedAt.1 hmem
      exact absurd hlt (Nat.not_lt.2 (hnewest entry hentry hpath))
    · intro hordered
      refine ⟨(r, f), hlast.1, rfl, hlast.2, fun entry hentry hpath => ?_⟩
      have hmem := mem_storedAt.2 ⟨hentry, hpath⟩
      rw [h, List.mem_append, List.mem_singleton] at hmem
      rcases hmem with hmem | rfl
      · exact Nat.not_lt.1 fun hlt => hordered ⟨earlier, r, f, h, entry, hmem, hlt⟩
      · exact Nat.le_refl _

end Ledger

/-! ## Courses of a user's own calls -/

/-- The results of the calls among some events. -/
def historyOf (events : List Event) : History :=
  events.filterMap fun e =>
    match e with
    | .call o result => some (o.call.project, result)
    | .sweep _ | .aside _ => none

/-- Whether a file shows what a draft was to write. -/
structure Shows (f : VisibleFile) (draft : FileDraft) : Prop where
  path_eq : f.path = draft.path
  role_eq : f.role = draft.role
  content_eq : f.content = draft.content

/-- What is there behind some events of a user on a project, told by the ledger. -/
structure Booked (read : Markup.OutlineReader) (settings : Settings) (s : Service)
    (user project : String) (events : List Event) (t : Service) : Prop where
  follows : Follows s (historyOf events) t
  accounted : Accounted events
  /-- What is kept is what the last save that failed in its write was to write. -/
  kept : ∀ save, t.pending.find? (user, project) = some save →
    ∃ r, (Ledger.ofEvents events).failed = some r ∧
      prepare read settings r.destination r.content = .ok save.toFileDraft
  stored_eq : (Ledger.ofEvents events).stored.map Prod.snd = savedIn (historyOf events) project
  /-- What was stored for a save is what it was to write. -/
  shown : ∀ entry ∈ (Ledger.ofEvents events).stored, ∃ draft,
    prepare read settings entry.1.destination entry.1.content = .ok draft ∧ Shows entry.2 draft

variable {u : Service}

theorem historyOf_concat_call (events : List Event) (o : Occasion) (result : Except SiteError Saved) :
    historyOf (events ++ [.call o result]) = historyOf events ++ [(o.call.project, result)] := by
  simp [historyOf]

theorem historyOf_concat_sweep (events : List Event) (now : Int) :
    historyOf (events ++ [.sweep now]) = historyOf events := by
  simp [historyOf]

theorem savedBy_call {o : Occasion} {result : Except SiteError Saved} (h : o.call.project = project) :
    savedBy project (o.call.project, result) = (Event.call o result).stored? := by
  cases result with
  | error e => rfl
  | ok saved => exact if_pos h

/-- What an event leaves, if what it stores and what it keeps are what the saves that it is about were to
write. -/
theorem Booked.concat (h : Booked read settings s user project events t)
    (hfollows : Follows s (historyOf (events ++ [e])) u)
    (hsaved : savedIn (historyOf (events ++ [e])) project =
      savedIn (historyOf events) project ++ e.stored?.toList)
    (hstored : ∀ f, e.stored? = some f → ∃ r draft, (Ledger.ofEvents events).request? e = some r ∧
      prepare read settings r.destination r.content = .ok draft ∧ Shows f draft)
    (hkept : ∀ save, u.pending.find? (user, project) = some save →
      ∃ r, ((Ledger.ofEvents events).enter e).failed = some r ∧
        prepare read settings r.destination r.content = .ok save.toFileDraft) :
    Booked read settings s user project (events ++ [e]) u where
  follows := hfollows
  accounted := h.accounted.concat fun f hf => by
    obtain ⟨r, -, hr, -⟩ := hstored f hf
    exact ⟨r, hr⟩
  kept := by rwa [Ledger.ofEvents_concat]
  stored_eq := by
    rw [Ledger.ofEvents_concat, hsaved, Ledger.enter, List.map_append, h.stored_eq]
    congr 1
    unfold Ledger.entry?
    cases hf : e.stored? with
    | none => cases (Ledger.ofEvents events).request? e <;> rfl
    | some f =>
      obtain ⟨r, -, hr, -⟩ := hstored f hf
      rw [hr]
      rfl
  shown entry hentry := by
    rw [Ledger.ofEvents_concat] at hentry
    rcases Ledger.mem_stored_enter.1 hentry with hentry | ⟨hr, hf⟩
    · exact h.shown entry hentry
    · obtain ⟨r, draft, hr', hdraft⟩ := hstored entry.2 hf
      cases hr.symm.trans hr'
      exact ⟨draft, hdraft⟩

theorem Event.isSave_of_retry {o : Occasion} (h : o.call = .retry project user)
    (result : Except SiteError Saved) : (Event.call o result).isSave = false := by
  obtain ⟨call, now, faults⟩ := o
  cases h
  rfl

theorem Event.failsWrite_call {o : Occasion} {result : Except SiteError Saved}
    (h : ∀ path, result ≠ .error (.writeFailed path)) : (Event.call o result).failsWrite = false := by
  unfold failsWrite
  split
  · rename_i hcall
    cases hcall
    exact absurd rfl (h _)
  · rfl

theorem shows_visible (saved : Saved) : Shows saved.visible saved.draft := ⟨rfl, rfl, rfl⟩

/-- A save that is successful writes what it prepared. -/
theorem prepare_of_saveFor {terms : Terms} {stale : Int → Prop} {destination content : String} {saved : Saved}
    (he : (saveFor read settings project user destination content).Ends terms stale s (.ok saved) t) :
    prepare read settings destination content = .ok saved.draft := by
  obtain ⟨-, -, ha⟩ | ⟨-, e, -, ha, -⟩ | ⟨-, draft, hdraft, hp⟩ := saveFor_ends he
  · cases ha
  · cases ha
  · rw [hp.draft_eq, hdraft]

section Retries

variable {terms : Terms} {stale : Int → Prop} {a : Except SiteError Saved}

/-- A retry that is successful writes what was kept. -/
theorem kept_of_retryFor {saved : Saved}
    (he : (retryFor settings project user).Ends terms stale s (.ok saved) t) :
    ∃ save, s.pending.find? (user, project) = some save ∧ saved.draft = save.toFileDraft := by
  cases hfound : s.pending.find? (user, project) with
  | none => cases (retryFor_none he hfound).1
  | some found =>
    obtain ⟨-, ha, -⟩ | ⟨e, ha, -⟩ | ⟨saved, u, ha, hwritten, -⟩ := retryFor_kept he hfound
    · cases ha
    · cases ha
    · cases ha
      exact ⟨found, rfl, hwritten.draft_eq⟩

/-- What is kept behind a retry was kept before, perhaps at another time. -/
theorem find?_of_retryFor {save : PendingSave}
    (he : (retryFor settings project user).Ends terms stale s a t)
    (h : t.pending.find? (user, project) = some save) :
    ∃ found, s.pending.find? (user, project) = some found ∧ save.toFileDraft = found.toFileDraft := by
  cases hfound : s.pending.find? (user, project) with
  | none =>
    rw [(retryFor_none he hfound).2, hfound] at h
    cases h
  | some found =>
    obtain ⟨-, -, hgone⟩ | ⟨e, -, hfailed⟩ | ⟨saved, u, -, -, rfl⟩ := retryFor_kept he hfound
    · cases hgone.symm.trans h
    · refine ⟨found, rfl, ?_⟩
      obtain ⟨-, -, hkept⟩ | ⟨-, hkept⟩ := hfailed.find?_of_error hfound
      · cases hkept.symm.trans h
        rfl
      · cases hkept.symm.trans h
        rfl
    · have hgone : (u.pending.discard user project).find? (user, project) = none :=
        OrderedMap.find?_erase_self _ _
      cases hgone.symm.trans h

end Retries

namespace Booked

variable (h : Booked read settings s user project events t) {o : Occasion}

include h

/-- What a call on the project leaves, if what it saves and what it keeps are what the saves that it is about
were to write. -/
theorem call (hproject : o.call.project = project) (hp : o.IsPlausible t)
    (hsaved : ∀ saved, (o.outcome read settings t).1 = .ok saved →
      ∃ r, (Ledger.ofEvents events).request? (.call o (.ok saved)) = some r ∧
        prepare read settings r.destination r.content = .ok saved.draft)
    (hkept : ∀ save, (o.outcome read settings t).2.pending.find? (user, project) = some save →
      ∃ r, ((Ledger.ofEvents events).enter (.call o (o.outcome read settings t).1)).failed = some r ∧
        prepare read settings r.destination r.content = .ok save.toFileDraft) :
    Booked read settings s user project (events ++ [.call o (o.outcome read settings t).1])
      (o.outcome read settings t).2 := by
  refine h.concat ?_ ?_ (fun f hf => ?_) hkept
  · rw [historyOf_concat_call]
    exact o.follows h.follows hp
  · rw [historyOf_concat_call, savedIn_concat, savedBy_call hproject]
  · cases ha : (o.outcome read settings t).1 with
    | error e =>
      rw [ha] at hf
      cases hf
    | ok saved =>
      rw [ha] at hf
      cases hf
      obtain ⟨r, hr, hdraft⟩ := hsaved saved ha
      exact ⟨r, saved.draft, hr, hdraft, shows_visible saved⟩

theorem save {destination content : String} (hcall : o.call = .save project user destination content)
    (hp : o.IsPlausible t) :
    Booked read settings s user project (events ++ [.call o (o.outcome read settings t).1])
      (o.outcome read settings t).2 := by
  have hends := o.ends_outcome read settings t
  rw [hcall] at hends
  have hrequest := Ledger.request?_of_save hcall (Ledger.ofEvents events)
  have hproject : o.call.project = project := by rw [hcall]; rfl
  refine h.call hproject hp (fun saved ha => ?_) fun save hsave => ?_
  · rw [ha] at hends
    exact ⟨_, hrequest _, prepare_of_saveFor hends⟩
  · by_cases hfailed : ∃ path, (o.outcome read settings t).1 = .error (.writeFailed path)
    · obtain ⟨path, hfailed⟩ := hfailed
      obtain ⟨draft, hdraft, hkept⟩ := Occasion.kept_of_writeFailed hcall hfailed
      cases hkept.symm.trans hsave
      rw [hfailed, Ledger.failed_enter_of_failsWrite rfl]
      exact ⟨_, hrequest _, hdraft⟩
    · have hspared : ∀ path, (o.outcome read settings t).1 ≠ .error (.writeFailed path) :=
        fun path ha => hfailed ⟨path, ha⟩
      rw [Ledger.failed_enter_of_not_failsWrite (Event.failsWrite_call hspared)]
      exact h.kept save (saveFor_pending_eq hends hspared ▸ hsave)

theorem retry (hcall : o.call = .retry project user) (hp : o.IsPlausible t) :
    Booked read settings s user project (events ++ [.call o (o.outcome read settings t).1])
      (o.outcome read settings t).2 := by
  have hends := Occasion.ends_retry hcall read settings t
  have hproject : o.call.project = project := by rw [hcall]; rfl
  refine h.call hproject hp (fun saved ha => ?_) fun save hsave => ?_
  · rw [ha] at hends
    obtain ⟨found, hfound, hwritten⟩ := kept_of_retryFor hends
    rw [Ledger.request?_of_retry hcall, hwritten]
    exact h.kept found hfound
  · obtain ⟨found, hfound, hsame⟩ := find?_of_retryFor hends hsave
    rw [Ledger.failed_enter_of_not_isSave (Event.isSave_of_retry hcall _), hsame]
    exact h.kept found hfound

theorem sweep (hn : t.pending.keys.Nodup) (now : Int) :
    Booked read settings s user project (events ++ [.sweep now])
      { t with pending := t.pending.sweep (Terms.ofSettings settings now).pendingExpiry now } := by
  have hfollows : Follows s (historyOf (events ++ [.sweep now]))
      { t with pending := t.pending.sweep (Terms.ofSettings settings now).pendingExpiry now } := by
    rw [historyOf_concat_sweep]
    exact { h.follows with pending := (h.follows.toHealthy.sweep _ now).pending }
  refine h.concat hfollows ?_ (fun f hf => by cases hf) fun save hsave => ?_
  · rw [historyOf_concat_sweep]
    exact (List.append_nil _).symm
  · rw [Ledger.failed_enter_of_not_isSave rfl]
    exact h.kept save (PendingSaves.find?_of_sweep hn hsave)

end Booked

theorem booked_start (settings : Settings) (ids : IdSupply) (user project : String) :
    Booked read settings (start settings ids) user project [] (start settings ids) where
  follows := (healthy_start settings ids).follows
  accounted := .nil
  kept save hsave := by cases hsave
  stored_eq := rfl
  shown entry hentry := by cases hentry

theorem booked_of_course {ids : IdSupply} (h : Course read settings (start settings ids) events s)
    (hown : ∀ e ∈ events, e.IsOf user project) :
    Booked read settings (start settings ids) user project events s := by
  induction h with
  | start => exact booked_start settings ids user project
  | call _ o hp ih =>
    rw [List.forall_mem_append, List.forall_mem_singleton] at hown
    have hbooked := ih hown.1
    obtain hretry | ⟨destination, content, hsave⟩ := hown.2
    · exact hbooked.retry hretry hp
    · exact hbooked.save hsave hp
  | sweep h now ih =>
    rw [List.forall_mem_append] at hown
    exact (ih hown.1).sweep (h.nodup_keys List.nodup_nil) now
  | aside _ _ _ _ _ =>
    rw [List.forall_mem_append, List.forall_mem_singleton] at hown
    exact hown.2.elim

namespace Booked

variable {ids : IdSupply} (h : Booked read settings (start settings ids) user project events s)

include h

theorem seen_eq : s.store.seen project = (Ledger.ofEvents events).stored.map Prod.snd := by
  rw [h.stored_eq, h.follows.seen_eq]
  rfl

theorem ascending :
    ((Ledger.ofEvents events).stored.map Prod.snd).Pairwise fun f g => f.number < g.number := by
  rw [h.stored_eq]
  exact h.follows.ascending project

/-- What is seen of a path is what was stored there last. -/
theorem contentAt_eq (path : String) :
    s.store.contentAt project path (s.store.greatest project) =
      ((Ledger.ofEvents events).storedAt path).getLast?.map Prod.snd := by
  have hall : upTo path (s.store.greatest project) (s.store.seen project) =
      ((Ledger.ofEvents events).storedAt path).map Prod.snd := by
    have hpath : upTo path (s.store.greatest project) (s.store.seen project) =
        (s.store.seen project).filter fun f => f.path = path := by
      refine List.filter_congr fun f hf => ?_
      have hle := h.follows.sound.le_greatest_of_mem_seen hf
      simp [hle]
    rw [hpath, h.seen_eq, List.filter_map]
    rfl
  have hordered : (((Ledger.ofEvents events).storedAt path).map Prod.snd).Pairwise
      fun f g => f.number ≤ g.number := by
    refine (h.ascending.sublist (List.filter_sublist.map Prod.snd)).imp ?_
    exact fun hlt => Int.le_of_lt hlt
  rw [Store.contentAt_eq, hall, newestOf_eq_getLast? hordered, List.getLast?_map]

end Booked

/-- Behind any saves and retries of one user on one project, whichever of their writes fail: what was stored
for a save is what it was to write; what is seen of a path is what was stored there last; and that was stored
for the latest of the saves that something was stored for there, unless a retry stored it behind another save
of the path that was successful when the save of the retry had failed. -/
theorem newest_iff {ids : IdSupply} (h : Course read settings (start settings ids) events s)
    (hown : ∀ e ∈ events, e.IsOf user project) (path : String) :
    let ledger := Ledger.ofEvents events
    let seen := s.store.contentAt project path (s.store.greatest project)
    (∀ entry ∈ ledger.stored, ∃ draft,
      prepare read settings entry.1.destination entry.1.content = .ok draft ∧ Shows entry.2 draft) ∧
    seen = (ledger.storedAt path).getLast?.map Prod.snd ∧
    (ledger.Newest path seen ↔ ¬ Overtaken path events) := by
  intro ledger seen
  have hbooked := booked_of_course h hown
  have hseen : seen = (ledger.storedAt path).getLast?.map Prod.snd := hbooked.contentAt_eq path
  have hnodup : (ledger.stored.map Prod.snd).Nodup :=
    hbooked.ascending.imp fun hlt hsame => absurd (hsame ▸ hlt) (Int.lt_irrefl _)
  refine ⟨hbooked.shown, hseen, ?_⟩
  rw [hseen, Ledger.newest_iff_not_reversed hnodup, Ledger.overtaken_iff hbooked.accounted]

/-! ## A retry behind another save -/

/-- A save of the path that another one failed to write. -/
def rewriting : Occasion := { call := .save "shop" "ann" "pages/home.jsx" "third", now := 1500 }

/-- A save of another path. -/
def elsewhere : Occasion := { call := .save "shop" "ann" "pages/other.jsx" "third", now := 1500 }

/-- What is there behind a save that failed, a call, and a retry. -/
def afterAll (o : Occasion) : Service :=
  (repetition.outcome ofMarkup {} (o.outcome ofMarkup {} (failedSave.outcome ofMarkup {} unnamed).2).2).2

/-- A save that failed, a call, and a retry. -/
def eventsAround (o : Occasion) : List Event :=
  [.call failedSave (failedSave.outcome ofMarkup {} unnamed).1,
    .call o (o.outcome ofMarkup {} (failedSave.outcome ofMarkup {} unnamed).2).1,
    .call repetition
      (repetition.outcome ofMarkup {} (o.outcome ofMarkup {} (failedSave.outcome ofMarkup {} unnamed).2).2).1]

theorem course_around {o : Occasion} (ho : o.IsPlausible (failedSave.outcome ofMarkup {} unnamed).2) :
    Course ofMarkup {} unnamed (eventsAround o) (afterAll o) := by
  refine .call (.call (.call .start failedSave ?_) o ho) repetition ?_ <;> rintro n ⟨⟩

/-- A save of another path that was successful behind the one that failed is not overtaken by the retry. -/
theorem newest_iff_elsewhere :
    (afterAll elsewhere).store.contentAt "shop" "pages/home.jsx" 3 =
        some { path := "pages/home.jsx", role := "page", content := "second", number := 3 } ∧
      ¬ Overtaken "pages/home.jsx" (eventsAround elsewhere) := by
  have hown : ∀ e ∈ eventsAround elsewhere, e.IsOf "ann" "shop" := by
    simp [eventsAround, Event.IsOf, failedSave, elsewhere, repetition]
  obtain ⟨-, hseen, hnewest⟩ := newest_iff (course_around (by decide)) hown "pages/home.jsx"
  have hgreatest : (afterAll elsewhere).store.greatest "shop" = 3 := by decide +kernel
  rw [hgreatest] at hseen hnewest
  exact ⟨hseen.trans (by decide +kernel), hnewest.1 (by decide +kernel)⟩

/-- Where the save that was successful is of the same path, the retry hides it behind what is older. -/
theorem not_newest_rewriting :
    Course ofMarkup {} unnamed (eventsAround rewriting) (afterAll rewriting) ∧
      (∀ e ∈ eventsAround rewriting, e.IsOf "ann" "shop") ∧
      (afterAll rewriting).store.contentAt "shop" "pages/home.jsx" 2 =
        some { path := "pages/home.jsx", role := "page", content := "third", number := 2 } ∧
      (afterAll rewriting).store.contentAt "shop" "pages/home.jsx" 3 =
        some { path := "pages/home.jsx", role := "page", content := "second", number := 3 } ∧
      ¬ (Ledger.ofEvents (eventsAround rewriting)).Newest "pages/home.jsx"
        ((afterAll rewriting).store.contentAt "shop" "pages/home.jsx"
          ((afterAll rewriting).store.greatest "shop")) := by
  refine ⟨course_around (by decide), ?_, by decide +kernel, by decide +kernel, by decide +kernel⟩
  simp [eventsAround, Event.IsOf, failedSave, rewriting, repetition]

end VersionedSite.Service
