import VersionedSite.Proofs.Service.Allocation

/-!
# Writers

A write of a draft as a machine that takes one step after another: the stage that it has come to says
what it does next (`Stage.program`), and every step leads from a stage to a stage (`advance_program`). A
write that nothing comes in between of goes through its stages to the end (`Job.run_program`).

* `retrying_program`: a write begins like an allocation.
* `Job.program_within`: how many steps a write takes at most.
-/

namespace VersionedSite.Service

open Program Store

/-- A draft that is to be written. -/
structure Job where
  project : String
  user : String
  draft : FileDraft

namespace Job

variable (settings : Settings) (job : Job)

/-- What is done for a job. -/
def program : Program (Except SiteError Saved) :=
  persist settings job.project job.user job.draft

/-- The result where every number that was tried had been taken. -/
def refusal : SiteError := .allocationFailed job.project settings.revisionAllocationAttempts

/-- What is left to do once there is a version, or none. -/
def versioned (r : Revision) : Except WriteFault Version → Program (Except SiteError Saved)
  | .ok _ => pure (.ok { revision := r, draft := job.draft })
  | .error _ => do
    take (.keepPending job.user job.project job.draft)
    pure (.error (.writeFailed job.draft.path))

/-- What is left to do once the file is recorded, or not. -/
def recorded (r : Revision) : Except WriteFault FileRecord → Program (Except WriteFault Version)
  | .error fault => pure (.error fault)
  | .ok file => take (.insertVersion file.id r.id job.draft.content)

/-- What is left of the recording of a file once it has been tried. -/
def tried (again : Bool) : Except WriteFault FileRecord → Program (Except WriteFault FileRecord)
  | .error .taken =>
    if again then recordFileOnce job.project job.draft.path job.draft.role
    else pure (.error .taken)
  | result => pure result

/-- What is left to do once there is a revision, or none. -/
def allotted : Except AllocationFault Revision → Program (Except SiteError Saved)
  | .error (.exhausted _) => pure (.error (job.refusal settings))
  | .error (.failed _) => pure (.error .storeFailed)
  | .ok r => writeDraft job.project job.draft r >>= job.versioned r

/-- A second try is the last. -/
theorem bind_tried_false (p : Program (Except WriteFault FileRecord)) : p >>= job.tried false = p := by
  change p.bind (job.tried false) = p
  induction p with
  | done a =>
    show job.tried false a = .done a
    unfold tried
    split <;> rfl
  | step st next ih => exact congrArg (Program.step st) (funext ih)

end Job

/-- Where a write stands. -/
inductive Stage where
  /-- It is about to read the next number, for the last time but so many. -/
  | reading (left : Nat)
  | numbering (left : Nat) (number : Int)
  /-- It is about to look for its file, for the last time or not. -/
  | searching (r : Revision) (again : Bool)
  | updating (r : Revision) (again : Bool) (found : FileRecord)
  | filing (r : Revision) (again : Bool)
  | versioning (r : Revision) (file : FileRecord)
  | keeping
  | ended (result : Except SiteError Saved)

namespace Stage

variable (settings : Settings) (job : Job)

/-- What is left to do. -/
def program : Stage → Program (Except SiteError Saved)
  | reading left => allocate job.project job.user (left + 1) 0 >>= job.allotted settings
  | numbering left number => allocateAt job.project job.user left number >>= job.allotted settings
  | searching r again =>
    ((recordFileOnce job.project job.draft.path job.draft.role >>= job.tried again) >>=
      job.recorded r) >>= job.versioned r
  | updating r again found =>
    ((take (.updateFile found job.draft.role) >>= job.tried again) >>= job.recorded r) >>=
      job.versioned r
  | filing r again =>
    ((take (.insertFile job.project job.draft.path job.draft.role) >>= job.tried again) >>=
      job.recorded r) >>= job.versioned r
  | versioning r file => take (.insertVersion file.id r.id job.draft.content) >>= job.versioned r
  | keeping => do
    take (.keepPending job.user job.project job.draft)
    pure (.error (.writeFailed job.draft.path))
  | ended result => .done result

/-- The stage with so many attempts left. -/
def retrying : Nat → Stage
  | 0 => ended (.error (job.refusal settings))
  | left + 1 => reading left

/-- The stage after a step that nothing befalls, with the state that the step leaves. -/
def advance (terms : Terms) : Stage → Service → Stage × Service
  | reading left, s => (numbering left (s.store.greatest job.project + 1), s)
  | numbering left number, s =>
    match s.store.addRevision terms.now job.project number job.user with
    | some (r, store) => (searching r true, { s with store })
    | none => (retrying settings job left, s)
  | searching r again, s =>
    match s.store.file? job.project job.draft.path with
    | some found => (updating r again found, s)
    | none => (filing r again, s)
  | updating r _ found, s =>
    let (file, store) := s.store.updateFile terms.now found job.draft.role
    (versioning r file, { s with store })
  | filing r again, s =>
    match s.store.addFile terms.now job.project job.draft.path job.draft.role with
    | some (file, store) => (versioning r file, { s with store })
    | none => (if again then searching r false else keeping, s)
  | versioning r file, s =>
    (ended (.ok { revision := r, draft := job.draft }),
      { s with store := (s.store.addVersion terms.now file.id r.id job.draft.content).2 })
  | keeping, s =>
    (ended (.error (.writeFailed job.draft.path)),
      { s with
        pending := s.pending.put job.user job.project { job.draft with since := terms.now } })
  | ended result, s => (ended result, s)

variable {settings job}

theorem retrying_program (attempts : Nat) (tried : Int) :
    (retrying settings job attempts).program settings job =
      allocate job.project job.user attempts tried >>= job.allotted settings := by
  cases attempts <;> rfl

theorem advance_recordFileOnce (terms : Terms) (s : Service) (project path role : String) :
    (recordFileOnce project path role).advance terms s =
      match s.store.file? project path with
      | some found => (take (.updateFile found role), s)
      | none => (take (.insertFile project path role), s) := by
  show (Program.bind (.done (Except.ok (s.store.file? project path))) _, s) = _
  cases s.store.file? project path <;> rfl

/-- Every step leads from a stage to a stage. -/
theorem advance_program (settings : Settings) (job : Job) (terms : Terms) (σ : Stage) (s : Service) :
    (σ.program settings job).advance terms s =
      ((σ.advance settings job terms s).1.program settings job, (σ.advance settings job terms s).2) := by
  cases σ with
  | reading left => rfl
  | numbering left number =>
    show (((allocateAt job.project job.user left number).advance terms s).1 >>= job.allotted settings,
      ((allocateAt job.project job.user left number).advance terms s).2) = _
    rw [advance_allocateAt, advance]
    cases s.store.addRevision terms.now job.project number job.user with
    | none =>
      dsimp only
      rw [retrying_program left number]
    | some row => rfl
  | searching r again =>
    show (((((recordFileOnce job.project job.draft.path job.draft.role).advance terms s).1 >>=
      job.tried again) >>= job.recorded r) >>= job.versioned r,
      ((recordFileOnce job.project job.draft.path job.draft.role).advance terms s).2) = _
    rw [advance_recordFileOnce, advance]
    cases s.store.file? job.project job.draft.path <;> rfl
  | updating r again found => rfl
  | filing r again =>
    show (((Program.done (s.inserted _).1 >>= job.tried again) >>= job.recorded r) >>= job.versioned r,
      (s.inserted _).2) = _
    rw [advance]
    cases s.store.addFile terms.now job.project job.draft.path job.draft.role with
    | none =>
      cases again with
      | false => rfl
      | true =>
        show _ = (((recordFileOnce job.project job.draft.path job.draft.role >>= job.tried false) >>=
          job.recorded r) >>= job.versioned r, s)
        rw [job.bind_tried_false]
        rfl
    | some row => rfl
  | versioning r file => rfl
  | keeping => rfl
  | ended result => rfl

end Stage

/-- A write begins with all its attempts. -/
theorem Job.program_eq (settings : Settings) (job : Job) :
    job.program settings =
      (Stage.retrying settings job settings.revisionAllocationAttempts.toNat).program settings job := by
  rw [Stage.retrying_program _ 0, program, persist]
  refine congrArg (createRevision settings job.project job.user >>= ·) (funext fun a => ?_)
  rcases a with (tried | fault) | r
  · rfl
  · rfl
  · show (writeDraft job.project job.draft r >>= _) = writeDraft job.project job.draft r >>= _
    refine congrArg (writeDraft job.project job.draft r >>= ·) (funext fun v => ?_)
    cases v <;> rfl

/-! ## Steps of a write -/

theorem recordFileOnce_within (project path role : String) :
    (recordFileOnce project path role).Within 2 := by
  refine within_bind (m := 1) (n := 1) (within_take _) fun a => ?_
  match a with
  | .error fault => exact within_done _ _
  | .ok (some found) => exact within_take _
  | .ok none => exact within_take _

theorem writeDraft_within (project : String) (draft : FileDraft) (r : Revision) :
    (writeDraft project draft r).Within 5 := by
  have hrecord : (recordFile project draft.path draft.role).Within 4 := by
    refine within_bind (m := 2) (n := 2) (recordFileOnce_within _ _ _) fun a => ?_
    match a with
    | .error .taken => exact recordFileOnce_within _ _ _
    | .error .broken => exact within_done _ _
    | .error (.untimely changing) => exact within_done _ _
    | .ok file => exact within_done _ _
  refine within_bind (m := 4) (n := 1) hrecord fun a => ?_
  cases a with
  | error fault => exact within_done _ _
  | ok file => exact within_take _

/-- A write takes two steps for each attempt and at most six more. -/
theorem Job.program_within (settings : Settings) (job : Job) :
    (job.program settings).Within (2 * settings.revisionAllocationAttempts.toNat + 6) := by
  refine within_bind (allocate_within _ 0) fun a => ?_
  match a with
  | .error (.exhausted _) => exact within_done _ _
  | .error (.failed _) => exact within_done _ _
  | .ok r =>
    refine within_bind (m := 5) (n := 1) (writeDraft_within _ _ r) fun v => ?_
    cases v with
    | ok v => exact within_done _ _
    | error fault => exact within_bind (m := 1) (n := 0) (within_take _) fun _ => within_done _ _

/-! ## A write on its own -/

theorem Stage.run_advance {settings : Settings} {job : Job} (terms : Terms) (σ : Stage) (s : Service) :
    (σ.program settings job).run terms {} s =
      ((σ.advance settings job terms s).1.program settings job).run terms {}
        (σ.advance settings job terms s).2 := by
  rw [Program.run_advance, advance_program]

/-- A write that nothing befalls or comes in between of takes place, at the number that follows the
greatest. -/
theorem Job.run_program {settings : Settings} (job : Job) (terms : Terms) (s : Service)
    (hattempts : 0 < settings.revisionAllocationAttempts.toNat) :
    ∃ r f numbered recorded,
      s.store.addRevision terms.now job.project (s.store.greatest job.project + 1) job.user =
          some (r, numbered) ∧
        Records terms.now job.project job.draft.path job.draft.role numbered f recorded ∧
        (job.program settings).run terms {} s =
          (.ok { revision := r, draft := job.draft }, {},
            { s with store := (recorded.addVersion terms.now f.id r.id job.draft.content).2 }) := by
  obtain ⟨left, hleft⟩ : ∃ left, settings.revisionAllocationAttempts.toNat = left + 1 :=
    ⟨settings.revisionAllocationAttempts.toNat - 1, by omega⟩
  cases ha : s.store.addRevision terms.now job.project (s.store.greatest job.project + 1) job.user with
  | none =>
    have hle := le_greatest (mem_numbers.2 (addRevision_eq_none.1 ha))
    omega
  | some row =>
    obtain ⟨r, numbered⟩ := row
    have hrun : (job.program settings).run terms {} s =
        ((Stage.searching r true).program settings job).run terms {} { s with store := numbered } := by
      rw [job.program_eq, hleft, Stage.retrying, Stage.run_advance, Stage.advance, Stage.run_advance,
        Stage.advance, ha]
    cases hf : numbered.file? job.project job.draft.path with
    | some found =>
      refine ⟨r, _, numbered, _, rfl, .inl ⟨found, hf, rfl⟩, ?_⟩
      rw [hrun, Stage.run_advance, Stage.advance, hf]
      rfl
    | none =>
      obtain ⟨row, hi⟩ : ∃ row, numbered.addFile terms.now job.project job.draft.path job.draft.role =
          some row := by
        rw [Store.addFile, hf]
        exact ⟨_, rfl⟩
      refine ⟨r, row.1, numbered, row.2, rfl, .inr hi, ?_⟩
      rw [hrun, Stage.run_advance, Stage.advance, hf, Stage.run_advance, Stage.advance, hi]
      rfl

end VersionedSite.Service
