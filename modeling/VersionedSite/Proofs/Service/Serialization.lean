import VersionedSite.Proofs.Service.Account

/-!
# Writes beside each other and in turn

Whatever order the steps of any writes come in, once all are done it is as if those that took place had
been done one after another in the order of their numbers (`serialized_of_done`): the same is seen of
every path at every number. Their numbers follow the greatest of each project without a gap, and every
file is in one row.

* `number_of_ascending`: numbers in a row are told by their places.
* `SerialOrder.exists_of_injOn`: sorting by numbers gives an order of the writes that took place.
* `adds_inTurn`: what jobs that are done in turn add.
-/

namespace VersionedSite

/-- Of numbers that go up, without a gap behind a certain one, each is told by its place. -/
theorem number_of_ascending {base last a : Int} {l l' : List Int}
    (h : (l ++ a :: l').Pairwise (· < ·)) (hm : ∀ n, n ∈ l ++ a :: l' ↔ base < n ∧ n ≤ last) :
    a = base + l.length + 1 := by
  obtain ⟨hl, hl', hlt⟩ := List.pairwise_append.1 h
  have ha := (hm a).1 (by simp)
  have hset : l.toFinset = Finset.Ioo base a := by
    ext n
    rw [List.mem_toFinset, Finset.mem_Ioo]
    constructor
    · intro hn
      have hbase := (hm n).1 (List.mem_append_left _ hn)
      exact ⟨hbase.1, hlt n hn a List.mem_cons_self⟩
    · rintro ⟨hn, hna⟩
      rcases List.mem_append.1 ((hm n).2 ⟨hn, by omega⟩) with hn | hn
      · exact hn
      · rcases List.mem_cons.1 hn with rfl | hn
        · omega
        · have := List.rel_of_pairwise_cons hl' hn
          omega
  have hcard : l.length = (a - base - 1).toNat := by
    rw [← Int.card_Ioo, ← hset, List.toFinset_card_of_nodup (hl.imp fun hab => Int.ne_of_lt hab)]
  omega

namespace Service

open Program Store

/-- The file that a job saves at a number. -/
def Job.visible (job : Job) (number : Int) : VisibleFile :=
  { path := job.draft.path, role := job.draft.role, content := job.draft.content, number }

variable {ι : Type}

/-- The state after jobs that are done one after another, without anything coming in between. -/
def inTurn (settings : Settings) (jobs : ι → Job) (terms : ι → Terms) (order : List ι)
    (s : Service) : Service :=
  order.foldl (fun s i => (((jobs i).program settings).run (terms i) {} s).2.2) s

/-- The writers in a project, of some. -/
def writersIn (jobs : ι → Job) (project : String) (order : List ι) : List ι :=
  order.filter fun i => (jobs i).project = project

/-- The paths that jobs are for. -/
def pathsOf (jobs : ι → Job) (order : List ι) (project path : String) : Bool :=
  order.any fun i => (jobs i).project = project ∧ (jobs i).draft.path = path

variable {settings : Settings} {jobs : ι → Job} {s : Service}

theorem writersIn_concat (project : String) (order : List ι) (i : ι) :
    writersIn jobs project (order ++ [i]) =
      writersIn jobs project order ++ if (jobs i).project = project then [i] else [] := by
  rw [writersIn, List.filter_append, ← writersIn]
  by_cases h : (jobs i).project = project <;> simp [h]

theorem pathsOf_concat (order : List ι) (i : ι) (p q : String) :
    pathsOf jobs (order ++ [i]) p q = true ↔
      pathsOf jobs order p q = true ∨ ((jobs i).project = p ∧ (jobs i).draft.path = q) := by
  rw [pathsOf, List.any_append, Bool.or_eq_true, ← pathsOf]
  simp

/-- Jobs that are done in turn save their files at the numbers that follow. -/
theorem adds_inTurn (terms : ι → Terms) (hs : s.store.Sound)
    (hrole : ∀ i, (jobs i).draft.role = (Role.ofPath (jobs i).draft.path).name) (number : ι → Int)
    (order : List ι) (hattempts : order ≠ [] → 0 < settings.revisionAllocationAttempts.toNat)
    (hnumber : ∀ l i l', order = l ++ i :: l' → number i =
      s.store.greatest (jobs i).project + (writersIn jobs (jobs i).project l).length + 1) :
    Adds s.store (pathsOf jobs order)
        (fun p => (writersIn jobs p order).map fun i => (jobs i).visible (number i))
        (inTurn settings jobs terms order s).store ∧
      ∀ p, (inTurn settings jobs terms order s).store.greatest p =
        s.store.greatest p + (writersIn jobs p order).length := by
  induction order using List.reverseRecOn with
  | nil => exact ⟨hs.adds, fun p => (Int.add_zero _).symm⟩
  | append_singleton order i ih =>
    have hpositive := hattempts (by simp)
    obtain ⟨hadds, hgreatest⟩ :=
      ih (fun _ => hpositive) fun l j l' he => hnumber l j (l' ++ [i]) (by simp [he])
    have hi := hnumber order i [] rfl
    obtain ⟨r, f, numbered, recorded, ha, hr, hrun⟩ :=
      (jobs i).run_program (terms i) (inTurn settings jobs terms order s) hpositive
    have hturn : (inTurn settings jobs terms (order ++ [i]) s).store =
        (recorded.addVersion (terms i).now f.id r.id (jobs i).draft.content).2 := by
      rw [inTurn, List.foldl_append, List.foldl_cons, List.foldl_nil, ← inTurn, hrun]
    have hrn : r.number = number i := by
      rw [(addRevision_eq_some.1 ha).2.1, hi, hgreatest]
    obtain ⟨hf, hfp, hfq, -⟩ := hr.mem
    have hrm : r ∈ recorded.revisions := by
      rw [hr.revisions_eq, (addRevision_eq_some.1 ha).2.2]
      exact List.mem_append_right _ (List.mem_singleton_self r)
    have hrp : r.project = f.project := by
      rw [(addRevision_eq_some.1 ha).2.1, hfp]
    rw [hturn]
    refine ⟨?_, fun p => ?_⟩
    · rw [hrole i] at hr
      have hrecorded := (hadds.addRevision ha).records (pathsOf_concat order i) hr
      refine hrecorded.addVersion hf hrm hrp ?_ fun p => ?_
      · rw [hfp, hfq, pathsOf_concat]
        exact .inr ⟨rfl, rfl⟩
      · rw [writersIn_concat, List.map_append, hfp, hfq, ← hrole i, hrn]
        by_cases hp : (jobs i).project = p <;> simp [hp, Job.visible]
    · show recorded.greatest p = _
      rw [hr.greatest_eq, greatest_addRevision ha rfl, hgreatest, writersIn_concat, List.length_append]
      split
      · rw [List.length_singleton]
        omega
      · rw [List.length_nil, Nat.add_zero]

/-! ## All writes done -/

/-- The number that a write came to. -/
def numberOf : Except SiteError Saved → Int
  | .ok saved => saved.revision.number
  | .error _ => 0

/-- An order of the writes that took place in which the numbers of every project go up. -/
structure SerialOrder (jobs : ι → Job) (result : ι → Except SiteError Saved) (order : List ι) :
    Prop where
  nodup : order.Nodup
  mem_iff : ∀ i, i ∈ order ↔ ∃ saved, result i = .ok saved
  ascending : order.Pairwise fun i j => (jobs i).project = (jobs j).project →
    numberOf (result i) < numberOf (result j)

/-- What writes have come to when all are done: their results, the state at the beginning and the one at
the end. -/
structure Serialized (settings : Settings) (jobs : ι → Job) (s t : Service)
    (result : ι → Except SiteError Saved) : Prop where
  /-- A write takes place unless every number that it tried had been taken. -/
  settled : ∀ i, (∃ r, result i = .ok { revision := r, draft := (jobs i).draft }) ∨
    result i = .error ((jobs i).refusal settings)
  /-- The numbers in a project are all different and follow its greatest without a gap. -/
  bijOn : ∀ project, ∃ count : Nat, Set.BijOn (fun i => numberOf (result i))
    {i | (jobs i).project = project ∧ ∃ saved, result i = .ok saved}
    (Set.Icc (s.store.greatest project + 1) (s.store.greatest project + count))
  /-- A file that was written is in one row. -/
  row : ∀ i saved, result i = .ok saved → (t.store.files.filter fun f =>
    f.project = (jobs i).project ∧ f.path = (jobs i).draft.path).length = 1
  /-- No file is in more than one row. -/
  row_le : ∀ project path,
    (t.store.files.filter fun f => f.project = project ∧ f.path = path).length ≤ 1
  /-- The writes that took place can be put in the order of their numbers. -/
  exists_order : ∃ order, SerialOrder jobs result order
  /-- What is seen is what is seen after they have been done one after another in such an order, at
  whatever times. -/
  contentAt_eq : ∀ order, SerialOrder jobs result order →
    ∀ (terms : ι → Terms) (project path : String) (number : Int),
      t.store.contentAt project path number =
        (inTurn settings jobs terms order s).store.contentAt project path number

section Done

variable [Fintype ι] {t : Service} {history : History} {result : ι → Except SiteError Saved}

theorem revision?_ended {a : Except SiteError Saved} {r : Revision} :
    (Stage.ended a).revision? = some r ↔ ∃ saved, a = .ok saved ∧ saved.revision = r := by
  cases a with
  | error e => simp [Stage.revision?]
  | ok saved => simp [Stage.revision?]

theorem revision?_ended_ne_none {a : Except SiteError Saved} :
    (Stage.ended a).revision? ≠ none ↔ ∃ saved, a = .ok saved := by
  cases a with
  | error e => simp [Stage.revision?]
  | ok saved => simp [Stage.revision?]

theorem numberOf_of_revision? {a : Except SiteError Saved} {r : Revision}
    (h : (Stage.ended a).revision? = some r) : r.number = numberOf a := by
  obtain ⟨saved, rfl, rfl⟩ := revision?_ended.1 h
  rfl

theorem hasRecorded_ended {a : Except SiteError Saved} :
    (Stage.ended a).hasRecorded = true ↔ ∃ saved, a = .ok saved := by
  cases a with
  | error e => simp [Stage.hasRecorded]
  | ok saved => simp [Stage.hasRecorded]

namespace SerialOrder

/-- Where the numbers of a project are all different, sorting by numbers gives such an order. -/
theorem exists_of_injOn
    (h : ∀ project, Set.InjOn (fun i => numberOf (result i))
      {i | (jobs i).project = project ∧ ∃ saved, result i = .ok saved}) :
    ∃ order, SerialOrder jobs result order := by
  classical
  let saved : List ι := (Finset.univ.filter fun i => ∃ saved, result i = .ok saved).toList
  let le (i j : ι) : Bool := decide (numberOf (result i) ≤ numberOf (result j))
  have hmem : ∀ i, i ∈ saved.mergeSort le ↔ ∃ saved, result i = .ok saved := by
    simp [saved]
  have hnodup : (saved.mergeSort le).Nodup :=
    (List.mergeSort_perm saved le).nodup_iff.2 (Finset.nodup_toList _)
  have hsorted : (saved.mergeSort le).Pairwise fun i j => le i j = true := by
    refine List.pairwise_mergeSort (fun i j k hij hjk => ?_) (fun i j => ?_) saved
    · simp only [le, decide_eq_true_eq] at hij hjk ⊢
      exact Int.le_trans hij hjk
    · simp only [le, Bool.or_eq_true, decide_eq_true_eq]
      exact Int.le_total _ _
  refine ⟨saved.mergeSort le, hnodup, hmem, (hsorted.and hnodup).imp_of_mem ?_⟩
  intro i j hi hj hij hp
  refine lt_of_le_of_ne (of_decide_eq_true hij.1) fun he => hij.2 ?_
  exact h (jobs j).project ⟨hp, (hmem i).1 hi⟩ ⟨rfl, (hmem j).1 hj⟩ he

variable {order : List ι} (ho : SerialOrder jobs result order)

include ho

theorem recordedPaths_eq (p q : String) :
    recordedPaths jobs (fun i => .ended (result i)) p q = pathsOf jobs order p q := by
  rw [Bool.eq_iff_iff]
  simp only [recordedPaths, pathsOf, decide_eq_true_eq, List.any_eq_true, hasRecorded_ended,
    ho.mem_iff]

omit [Fintype ι] in
theorem pairwise_writersIn (project : String) :
    ((writersIn jobs project order).map fun i => numberOf (result i)).Pairwise (· < ·) := by
  rw [List.pairwise_map, writersIn, List.pairwise_filter]
  refine ho.ascending.imp fun hlt hi hj => hlt ?_
  exact (of_decide_eq_true hi).trans (of_decide_eq_true hj).symm

end SerialOrder

namespace Serial

variable (h : Serial settings jobs s.store (fun i => .ended (result i)) t.store history)

include h

theorem settled (i : ι) : (∃ r, result i = .ok { revision := r, draft := (jobs i).draft }) ∨
    result i = .error ((jobs i).refusal settings) := by
  have hfits := h.fits i
  cases hi : result i with
  | error e =>
    rw [hi] at hfits
    exact .inr (congrArg Except.error hfits)
  | ok saved =>
    rw [hi] at hfits
    exact .inl ⟨saved.revision, by rw [← hfits.1]⟩

theorem bijOn (project : String) : Set.BijOn (fun i => numberOf (result i))
    {i | (jobs i).project = project ∧ ∃ saved, result i = .ok saved}
    (Set.Icc (s.store.greatest project + 1) (t.store.greatest project)) := by
  have hbij := h.assigned.bijOn_number h.adds.sound.toKeyed (fun i => numberOf (result i))
    (fun i r hr => numberOf_of_revision? hr) project
  simpa only [revision?_ended_ne_none] using hbij

variable {order : List ι} (ho : SerialOrder jobs result order)

include ho

theorem mem_number (project : String) (n : Int) :
    n ∈ (writersIn jobs project order).map (fun i => numberOf (result i)) ↔
      s.store.greatest project < n ∧ n ≤ t.store.greatest project := by
  have hicc : (s.store.greatest project < n ∧ n ≤ t.store.greatest project) ↔
      n ∈ Set.Icc (s.store.greatest project + 1) (t.store.greatest project) := Iff.rfl
  rw [hicc, ← (h.bijOn project).image_eq]
  simp only [writersIn, List.mem_map, List.mem_filter, decide_eq_true_eq, ho.mem_iff, Set.mem_image,
    Set.mem_ofPred_eq, and_comm]

/-- What those who are through have saved, in the order of their numbers. -/
theorem perm_savedIn (project : String) :
    (savedIn history project).Perm
      ((writersIn jobs project order).map fun i => (jobs i).visible (numberOf (result i))) := by
  have hperm : history.Perm (order.map fun i => ((jobs i).project, result i)) := by
    refine (List.perm_ext_iff_of_nodup h.nodup ?_).2 fun e => ?_
    · refine ho.nodup.map_on fun i hi j hj he => ?_
      obtain ⟨saved, hsaved⟩ := (ho.mem_iff i).1 hi
      rw [Prod.mk.injEq] at he
      refine h.assigned.distinct i j saved.revision ?_ ?_
      · exact revision?_ended.2 ⟨saved, hsaved, rfl⟩
      · exact revision?_ended.2 ⟨saved, he.2.symm.trans hsaved, rfl⟩
    · rw [h.mem_history, List.mem_map]
      constructor
      · rintro ⟨i, saved, hi, rfl⟩
        have hsaved := Stage.ended.inj hi
        exact ⟨i, (ho.mem_iff i).2 ⟨saved, hsaved⟩, by rw [hsaved]⟩
      · rintro ⟨i, hi, rfl⟩
        obtain ⟨saved, hsaved⟩ := (ho.mem_iff i).1 hi
        exact ⟨i, saved, by rw [hsaved], by rw [hsaved]⟩
  have hsaved : (order.map fun i => ((jobs i).project, result i)).filterMap (savedBy project) =
      (writersIn jobs project order).map fun i => (jobs i).visible (numberOf (result i)) := by
    rw [writersIn, List.filterMap_map, ← List.filterMap_eq_map', List.filterMap_filter]
    refine List.filterMap_congr fun i hi => ?_
    obtain ⟨saved, hsaved⟩ := (ho.mem_iff i).1 hi
    have hdraft : saved.draft = (jobs i).draft := by
      have hfits := h.fits i
      rw [hsaved] at hfits
      exact hfits.1
    show savedBy project ((jobs i).project, result i) = _
    rw [hsaved, savedBy, Saved.visible, hdraft]
    by_cases hp : (jobs i).project = project <;> simp [hp, Job.visible, numberOf]
  rw [← hsaved]
  exact hperm.filterMap _

/-- The numbers of those who are through are told by their places. -/
theorem number_eq {l l' : List ι} {i : ι} (he : order = l ++ i :: l') :
    numberOf (result i) =
      s.store.greatest (jobs i).project + (writersIn jobs (jobs i).project l).length + 1 := by
  have hsplit : (writersIn jobs (jobs i).project order).map (fun i => numberOf (result i)) =
      (writersIn jobs (jobs i).project l).map (fun i => numberOf (result i)) ++
        numberOf (result i) ::
          (writersIn jobs (jobs i).project l').map (fun i => numberOf (result i)) := by
    simp [he, writersIn]
  have hpairwise := ho.pairwise_writersIn (jobs i).project
  have hmem := h.mem_number ho (jobs i).project
  rw [hsplit] at hpairwise hmem
  rw [number_of_ascending hpairwise hmem, List.length_map]

/-- What is seen in the end is what is seen after all has been done in turn. -/
theorem contentAt_eq (hs : s.store.Sound)
    (hrole : ∀ i, (jobs i).draft.role = (Role.ofPath (jobs i).draft.path).name)
    (hattempts : ∀ i saved, result i = .ok saved → 0 < settings.revisionAllocationAttempts.toNat)
    (terms : ι → Terms) (project path : String) (number : Int) :
    t.store.contentAt project path number =
      (inTurn settings jobs terms order s).store.contentAt project path number := by
  have hpositive : order ≠ [] → 0 < settings.revisionAllocationAttempts.toNat := by
    intro hne
    obtain ⟨i, hi⟩ := List.exists_mem_of_ne_nil order hne
    obtain ⟨saved, hsaved⟩ := (ho.mem_iff i).1 hi
    exact hattempts i saved hsaved
  obtain ⟨hturn, -⟩ := adds_inTurn terms hs hrole (fun i => numberOf (result i)) order
    hpositive fun l i l' he => h.number_eq ho he
  have hperm := h.perm_savedIn ho project
  have hnumbers : (savedIn history project).map VisibleFile.number |>.Perm
      ((writersIn jobs project order).map fun i => numberOf (result i)) := by
    have hmap := hperm.map VisibleFile.number
    rwa [List.map_map] at hmap
  refine h.adds.contentAt_eq hturn hs.toKeyed (ho.recordedPaths_eq project) hperm ?_ ?_ number
  · refine hnumbers.nodup_iff.2 ?_
    exact (ho.pairwise_writersIn project).imp fun hlt => Int.ne_of_lt hlt
  · intro f hf
    have hmem := hnumbers.mem_iff.1 (List.mem_map_of_mem hf)
    exact ((h.mem_number ho project f.number).1 hmem).1

end Serial

end Done

theorem Stage.eq_ended {job : Job} {σ : Stage} {a : Except SiteError Saved}
    (h : σ.program settings job = .done a) : σ = .ended a := by
  cases σ with
  | ended result => exact congrArg Stage.ended (Program.done.inj h)
  | _ => cases h

/-- Without attempts no write takes place. -/
theorem attempts_pos [DecidableEq ι] {schedule : List (Move ι)} {i : ι} {saved : Saved}
    (h : ((writers settings s jobs).run schedule).programs i = .done (.ok saved)) :
    0 < settings.revisionAllocationAttempts.toNat := by
  rcases Nat.eq_zero_or_pos settings.revisionAllocationAttempts.toNat with hzero | hpos
  · have hdone : (writers settings s jobs).programs i = .done (.error ((jobs i).refusal settings)) := by
      show (jobs i).program settings = _
      rw [Job.program_eq, hzero]
      rfl
    cases h.symm.trans (Crowd.programs_run_of_done hdone schedule)
  · exact hpos

/-- Writes of drafts in the roles that their paths tell, beside each other, beginning at any sound store
and with whatever else goes on that writes nothing: each is done after so many steps, and once all are
done it is as if those that took place had been done one after another. -/
theorem serialized_of_done [Fintype ι] [DecidableEq ι] (settings : Settings) (s : Service)
    (hs : s.store.Sound) (jobs : ι → Job)
    (hrole : ∀ i, (jobs i).draft.role = (Role.ofPath (jobs i).draft.path).name)
    (schedule : List (Move ι))
    (hschedule : ∀ m ∈ schedule, m.Foreign fun st => st.isWrite = false) :
    let c := (writers settings s jobs).run schedule
    (∀ i, 2 * settings.revisionAllocationAttempts.toNat + 6 ≤ schedule.countP (Move.isOf i) →
        ∃ a, c.programs i = .done a) ∧
      ∀ result : ι → Except SiteError Saved, (∀ i, c.programs i = .done (result i)) →
        Serialized settings jobs s c.service result := by
  intro c
  refine ⟨fun i hi => ?_, fun result hdone => ?_⟩
  · exact (writers settings s jobs).done_of_turns ((jobs i).program_within settings) hi
  · obtain ⟨stages, history, hprograms, h⟩ := exists_serial hs hrole hschedule
    obtain rfl : stages = fun i => .ended (result i) := by
      funext i
      exact Stage.eq_ended ((hprograms i).symm.trans (hdone i))
    refine ⟨h.settled, fun project => ?_, fun i saved hi => ?_,
      h.adds.sound.length_filter_path_le, ?_, ?_⟩
    · refine ⟨(c.service.store.greatest project - s.store.greatest project).toNat, ?_⟩
      have hle : s.store.greatest project ≤ c.service.store.greatest project :=
        h.assigned.greatest_le project
      have hlast : s.store.greatest project +
          ((c.service.store.greatest project - s.store.greatest project).toNat : Int) =
          c.service.store.greatest project := by
        omega
      rw [hlast]
      exact h.bijOn project
    · have hfits := h.fits i
      rw [hi] at hfits
      obtain ⟨-, id, f, hf, -, hp, hq⟩ := hfits
      refine Nat.le_antisymm (h.adds.sound.length_filter_path_le _ _) (List.length_pos_of_mem (a := f) ?_)
      rw [List.mem_filter, decide_eq_true_eq]
      exact ⟨hf, hp, hq⟩
    · exact SerialOrder.exists_of_injOn fun project => (h.bijOn project).injOn
    · intro order ho terms project path number
      refine h.contentAt_eq ho hs hrole (fun i saved hi => ?_) terms project path number
      exact attempts_pos ((hdone i).trans (congrArg Program.done hi))

/-! ## Two first writes of one file -/

/-- Two users write the same file of a project, and a third one a file of another project. -/
def contender : Fin 3 → Job
  | 0 =>
    { project := "shop", user := "ann"
      draft := { path := "pages/home.jsx", role := "page", content := "ann's", fixes := [] } }
  | 1 =>
    { project := "shop", user := "bob"
      draft := { path := "pages/home.jsx", role := "page", content := "bob's", fixes := [] } }
  | 2 =>
    { project := "blog", user := "eve"
      draft := { path := "pages/home.jsx", role := "page", content := "eve's", fixes := [] } }

/-- The first two read the same number and both find no file; who has the smaller number inserts its
version last. -/
def contention : List (Move (Fin 3)) :=
  [0, 1, 2, 0, 1, 1, 1, 2, 0, 1, 1, 0, 0, 0, 2, 2, 1, 0, 2].map fun i => .own i (.ofSettings {} 0)

def contended : Crowd (Fin 3) (Except SiteError Saved) :=
  (writers {} (start {} { sequence := fun _ => "" }) contender).run contention

def contendedResult (i : Fin 3) : Except SiteError Saved :=
  .ok
    { revision :=
        match i with
        | 0 => { id := 1, project := "shop", number := 1, user := "ann", createdAt := 0 }
        | 1 => { id := 2, project := "shop", number := 2, user := "bob", createdAt := 0 }
        | 2 => { id := 3, project := "blog", number := 1, user := "eve", createdAt := 0 }
      draft := (contender i).draft }

theorem serialized_of_done_contention :
    Serialized {} contender (start {} { sequence := fun _ => "" }) contended.service contendedResult ∧
      contended.service.store.contentAt "shop" "pages/home.jsx" 2 =
        some { path := "pages/home.jsx", role := "page", content := "bob's", number := 2 } := by
  have hdone : ∀ i, contended.programs i = .done (contendedResult i) := by
    intro i
    match i with
    | 0 => rfl
    | 1 => rfl
    | 2 => rfl
  refine ⟨?_, by decide +kernel⟩
  refine (serialized_of_done {} (start {} { sequence := fun _ => "" }) sound_empty contender
    (by decide +kernel) contention ?_).2 contendedResult hdone
  simp [contention, Move.foreign_own]

end Service

end VersionedSite
