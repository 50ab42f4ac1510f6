import VersionedSite.Bundle.Sandbox
import VersionedSite.Proofs.Json.Reading
import VersionedSite.Proofs.OrderedMap
import VersionedSite.Proofs.Path.Segments

/-!
# Renderings one after the other

Renderings that follow one another never meet each other's files (`attempt_of_run`). Each one is given a file
right in the directory, by a name that none has had before: whatever the project is called, there is nothing
in the name that leads elsewhere (`isFileName_moduleName`), and it ends in the characters of an identifier
that was drawn for this rendering alone (`take_eq_of_moduleName_eq`). So a rendering takes away its own file
and no other one, however it ends.

The first call makes the directory where there is none. What was in it before that is not looked at: a file that
happens to have the name of a module is overwritten by it, and taken away with it (`leftover_lost`).

What carries over from one rendering to the next is which names are in use: only those that were offered by
the identifiers drawn so far (`Sandbox.Follows`).
-/

namespace VersionedSite

/-- The characters of an identifier that a module is named by. -/
def IdSupply.stem (ids : IdSupply) (k : Nat) : List Char := (ids.sequence k).toList.take 8

/-- Whether the next `count` identifiers begin with eight letters or digits each, and no two of them with the
same ones. -/
structure IdSupply.DrawsApart (ids : IdSupply) (count : Nat) : Prop where
  length_stem : ∀ k, ids.drawn < k → k ≤ ids.drawn + count → (ids.stem k).length = 8
  isAlphanum_stem : ∀ k, ids.drawn < k → k ≤ ids.drawn + count → ∀ c ∈ ids.stem k, c.isAlphanum = true
  stem_ne : ∀ j k, ids.drawn < j → j < k → k ≤ ids.drawn + count → ids.stem j ≠ ids.stem k

theorem IdSupply.DrawsApart.mono {ids : IdSupply} {count more : Nat} (h : ids.DrawsApart more)
    (hle : count ≤ more) : ids.DrawsApart count where
  length_stem k hlow hhigh := h.length_stem k hlow (by omega)
  isAlphanum_stem k hlow hhigh := h.isAlphanum_stem k hlow (by omega)
  stem_ne j k hlow hlt hhigh := h.stem_ne j k hlow hlt (by omega)

namespace Bundle

/-! ## Names of modules -/

/-- Whether a text names a file right in a directory. -/
def IsFileName (name : List Char) : Prop :=
  Path.segments name = [name] ∧ Path.IsName name ∧ '\x00' ∉ name

section Name

variable {project project' : String} {revision revision' : Int} {bundle bundle' id id' : String}

/-- The parts of a name, the digest as what matters of it. -/
theorem toList_moduleName (project : String) (revision : Int) (bundle id : String) :
    ∃ digest, (∀ c ∈ digest, isSafe c = true) ∧ digest.length ≤ 12 ∧
      (moduleName project revision bundle id).toList = "landing-".toList ++ (safeName project.toList ++
        '-' :: ((toString revision).toList ++ '-' :: (digest ++
          '-' :: (id.toList.take 8 ++ ".mjs".toList)))) := by
  have hdigit : ∀ n < 16, isSafe (Text.hexDigit n) = true := by decide
  refine ⟨(Digest.hexText (Digest.sha256 (Text.Utf8.encode bundle.toList))).take 12, fun c hc => ?_,
    List.length_take_le _ _, ?_⟩
  · exact Digest.forall_mem_hexText (P := fun c => isSafe c = true) hdigit _ c (List.mem_of_mem_take hc)
  · simp [moduleName]

/-- Names that are equal come from the same characters of identifiers. -/
theorem take_eq_of_moduleName_eq (hid : (id.toList.take 8).length = 8)
    (hid' : (id'.toList.take 8).length = 8)
    (h : moduleName project revision bundle id = moduleName project' revision' bundle' id') :
    id.toList.take 8 = id'.toList.take 8 := by
  have hsuffix : ∀ (project : String) revision bundle (id : String),
      id.toList.take 8 ++ ".mjs".toList <:+ (moduleName project revision bundle id).toList := by
    intro project revision bundle id
    obtain ⟨digest, -, -, he⟩ := toList_moduleName project revision bundle id
    exact ⟨"landing-".toList ++ (safeName project.toList ++ '-' :: ((toString revision).toList ++
      '-' :: (digest ++ ['-']))), by simp [he]⟩
  have hboth := h ▸ hsuffix project revision bundle id
  have hlength : (id.toList.take 8 ++ ".mjs".toList).length =
      (id'.toList.take 8 ++ ".mjs".toList).length := by
    rw [List.length_append, List.length_append, hid, hid']
  have hends := (List.suffix_of_suffix_length_le hboth (hsuffix project' revision' bundle' id')
    (Nat.le_of_eq hlength)).eq_of_length hlength
  exact List.append_cancel_right hends

theorem isSafe_of_mem_moduleName (hid : ∀ c ∈ id.toList.take 8, c.isAlphanum = true) {c : Char}
    (h : c ∈ (moduleName project revision bundle id).toList) : isSafe c = true ∨ c = '.' := by
  obtain ⟨digest, hdigest, -, he⟩ := toList_moduleName project revision bundle id
  have hlead : "landing-".toList.all isSafe = true := by decide
  have hend : (".mjs".toList.all fun c => isSafe c || c == '.') = true := by decide
  have hdash : isSafe '-' = true := by decide
  rw [he] at h
  simp only [List.mem_append, List.mem_cons] at h
  rcases h with h | h | rfl | h | rfl | h | rfl | h | h
  · exact .inl (List.all_eq_true.1 hlead c h)
  · exact .inl (isSafe_of_mem_safeName h)
  · exact .inl hdash
  · rcases Json.isDigit_of_mem_toString h with hdigit | rfl
    · exact .inl (by simp [isSafe, Char.isAlphanum, hdigit])
    · exact .inl hdash
  · exact .inl hdash
  · exact .inl (hdigest c h)
  · exact .inl hdash
  · exact .inl (by simp [isSafe, hid c h])
  · simpa using List.all_eq_true.1 hend c h

theorem isFileName_moduleName (hid : ∀ c ∈ id.toList.take 8, c.isAlphanum = true) :
    IsFileName (moduleName project revision bundle id).toList := by
  have hslash : '/' ∉ (moduleName project revision bundle id).toList := fun h =>
    (isSafe_of_mem_moduleName hid h).elim (by decide) (by decide)
  refine ⟨?_, ?_, fun h => (isSafe_of_mem_moduleName hid h).elim (by decide) (by decide)⟩
  · have hone := Path.segments_intercalate (List.cons_ne_nil _ [])
      (fun name hname => List.mem_singleton.1 hname ▸ hslash)
    simpa using hone
  · obtain ⟨digest, -, -, he⟩ := toList_moduleName project revision bundle id
    rw [he]
    refine ⟨nofun, nofun, nofun⟩

/-- A name is as long as its number wants, and otherwise no longer than 67 characters. -/
theorem length_moduleName_le (project : String) (revision : Int) (bundle id : String) :
    (moduleName project revision bundle id).toList.length ≤ 67 + (toString revision).toList.length := by
  obtain ⟨digest, -, hdigest, he⟩ := toList_moduleName project revision bundle id
  have hproject := length_safeName project.toList
  have hid : (id.toList.take 8).length ≤ 8 := List.length_take_le _ _
  have hlead : "landing-".toList.length = 8 := rfl
  have hend : ".mjs".toList.length = 4 := rfl
  rw [he]
  simp only [List.length_append, List.length_cons]
  omega

end Name

/-! ## One rendering -/

/-- What is rendered is the bundle, whatever else there is in the directory. -/
theorem result_attempt (keep : Bool) (render : String → Except Fault String) (project : String)
    (revision : Int) (bundle : String) (directory : ModuleDirectory) (ids : IdSupply) :
    (attempt keep render project revision bundle directory ids).result = render bundle := by
  simp [attempt]

/-- A call for a rendering, with what the toolchain makes of the text of a module. -/
structure RenderCall where
  project : String
  revision : Int
  bundle : String
  render : String → Except Fault String

/-- A sandbox between two renderings. -/
structure Sandbox where
  /-- The directory, unless it is still to be made. -/
  directory : Option ModuleDirectory
  ids : IdSupply
  /-- The names of the modules that have been rendered, the latest first. -/
  used : List String := []

/-- The files in the directory. -/
def Sandbox.files (s : Sandbox) : ModuleDirectory := s.directory.getD .empty

/-- What comes of a call. -/
def RenderCall.attempt (c : RenderCall) (keep : Bool) (s : Sandbox) : Attempt :=
  Bundle.attempt keep c.render c.project c.revision c.bundle s.files s.ids

/-- The sandbox after a call. -/
def Sandbox.after (keep : Bool) (s : Sandbox) (c : RenderCall) : Sandbox where
  directory := some (c.attempt keep s).directory
  ids := (c.attempt keep s).ids
  used := (c.attempt keep s).name :: s.used

/-- The sandbox after a row of calls. -/
def Sandbox.run (keep : Bool) (s : Sandbox) (calls : List RenderCall) : Sandbox :=
  calls.foldl (Sandbox.after keep) s

section Step

variable (keep : Bool) (s : Sandbox) (c : RenderCall)

theorem RenderCall.name_attempt : (c.attempt keep s).name =
    moduleName c.project c.revision c.bundle (s.ids.sequence (s.ids.drawn + 1)) := rfl

theorem RenderCall.directory_attempt :
    (c.attempt keep s).directory =
      if keep then s.files.insert (c.attempt keep s).name c.bundle
      else (s.files.insert (c.attempt keep s).name c.bundle).erase (c.attempt keep s).name := rfl

theorem RenderCall.keys_attempt {name : String} (h : name ∈ (c.attempt keep s).directory.keys) :
    name ∈ s.files.keys ∨ name = (c.attempt keep s).name := by
  have hinsert : ∀ e ∈ (s.files.insert (c.attempt keep s).name c.bundle).entries,
      e.1 ∈ s.files.keys ∨ e.1 = (c.attempt keep s).name := by
    intro e he
    rcases List.mem_cons.1 (OrderedMap.entries_insert_subset _ _ _ he) with rfl | he
    · exact .inr rfl
    · exact .inl (List.mem_map_of_mem (f := Prod.fst) he)
  obtain ⟨e, he, rfl⟩ := List.mem_map.1 h
  rw [directory_attempt] at he
  split at he
  · exact hinsert e he
  · exact hinsert e (OrderedMap.entries_erase_subset _ _ he)

theorem RenderCall.find?_attempt_of_ne {name : String} (h : name ≠ (c.attempt keep s).name) :
    (c.attempt keep s).directory.find? name = s.files.find? name := by
  have hinsert := OrderedMap.find?_insert_of_ne s.files h c.bundle
  rw [directory_attempt]
  split
  · exact hinsert
  · exact (OrderedMap.find?_erase_of_ne _ h).trans hinsert

/-- The file of a rendering holds the bundle afterwards if it is kept, and otherwise there is none. -/
theorem RenderCall.find?_attempt_self :
    (c.attempt keep s).directory.find? (c.attempt keep s).name = if keep then some c.bundle else none := by
  rw [directory_attempt]
  split
  · exact OrderedMap.find?_insert_self ..
  · exact OrderedMap.find?_erase_self ..

/-- A file by a new name is the only thing that a rendering adds, if it is kept. -/
theorem RenderCall.directory_attempt_of_not_mem (h : (c.attempt keep s).name ∉ s.files.keys) :
    (c.attempt keep s).directory =
      if keep then ⟨s.files.entries ++ [((c.attempt keep s).name, c.bundle)]⟩ else s.files := by
  rw [directory_attempt]
  split
  · rw [← OrderedMap.entries_insert_of_not_mem s.files h]
  · exact OrderedMap.erase_insert_of_not_mem s.files h c.bundle

end Step

/-! ## Rows of renderings -/

/-- Whether a name is one of those that the next `count` modules may be given. -/
def Offers (ids : IdSupply) (count : Nat) (name : String) : Prop :=
  ∃ k project revision bundle, ids.drawn < k ∧ k ≤ ids.drawn + count ∧
    name = moduleName project revision bundle (ids.sequence k)

theorem Offers.mono {ids : IdSupply} {count more : Nat} {name : String} (h : Offers ids count name)
    (hle : count ≤ more) : Offers ids more name := by
  obtain ⟨k, project, revision, bundle, hlow, hhigh, he⟩ := h
  exact ⟨k, project, revision, bundle, hlow, by omega, he⟩

/-- What a sandbox has come to after so many calls. -/
structure Sandbox.Follows (s t : Sandbox) (count : Nat) : Prop where
  sequence_eq : t.ids.sequence = s.ids.sequence
  drawn_eq : t.ids.drawn = s.ids.drawn + count
  offered : ∀ name ∈ t.used, name ∈ s.used ∨ Offers s.ids count name
  keys : ∀ name ∈ t.files.keys, name ∈ s.files.keys ∨ Offers s.ids count name

section Run

variable {keep : Bool} {s t : Sandbox} {count : Nat} {c : RenderCall}

theorem Sandbox.Follows.offers_name (h : s.Follows t count) :
    Offers s.ids (count + 1) (c.attempt keep t).name := by
  refine ⟨t.ids.drawn + 1, c.project, c.revision, c.bundle, ?_, ?_, ?_⟩
  · rw [h.drawn_eq]
    omega
  · rw [h.drawn_eq]
    omega
  · rw [c.name_attempt, h.sequence_eq]

theorem Sandbox.Follows.step (h : s.Follows t count) : s.Follows (t.after keep c) (count + 1) where
  sequence_eq := h.sequence_eq
  drawn_eq := congrArg Nat.succ h.drawn_eq
  offered name hname := by
    rcases List.mem_cons.1 hname with rfl | hname
    · exact .inr h.offers_name
    · exact (h.offered name hname).imp_right fun ho => ho.mono (Nat.le_succ count)
  keys name hname := by
    rcases c.keys_attempt keep t hname with hname | rfl
    · exact (h.keys name hname).imp_right fun ho => ho.mono (Nat.le_succ count)
    · exact .inr h.offers_name

theorem Sandbox.follows_run (keep : Bool) (s : Sandbox) (calls : List RenderCall) :
    s.Follows (s.run keep calls) calls.length := by
  induction calls using List.reverseRecOn with
  | nil => exact ⟨rfl, rfl, fun _ => .inl, fun _ => .inl⟩
  | append_singleton calls c ih =>
    rw [run, List.foldl_append, List.length_append]
    exact ih.step

/-- The name that is given next has not been offered before. -/
theorem Sandbox.Follows.not_offers_name (h : s.Follows t count) (hids : s.ids.DrawsApart (count + 1)) :
    ¬Offers s.ids count (c.attempt keep t).name := by
  rintro ⟨k, project, revision, bundle, hlow, hhigh, he⟩
  rw [c.name_attempt, h.sequence_eq, h.drawn_eq] at he
  have hlength := hids.length_stem (s.ids.drawn + count + 1) (by omega) (by omega)
  refine hids.stem_ne k (s.ids.drawn + count + 1) hlow (by omega) (by omega) ?_
  exact (take_eq_of_moduleName_eq hlength (hids.length_stem k hlow (by omega)) he).symm

end Run

/-- After any row of calls, a rendering takes place in a file right in the directory, by a name that was not
used before, and what is rendered from there is the bundle, however that ends. There is a directory then, no
other file in it is touched, and this one stays if files are kept. Unless there was a file by this name from the
first, the file is a new one, and the directory holds what it held, or this file in addition if files are
kept. -/
theorem attempt_of_run (ids : IdSupply) (directory : Option ModuleDirectory) (keep : Bool)
    (earlier : List RenderCall) (call : RenderCall) (hids : ids.DrawsApart (earlier.length + 1)) :
    let before := Sandbox.run keep { directory, ids } earlier
    let a := call.attempt keep before
    let after := before.after keep call
    (IsFileName a.name.toList ∧ a.name.toList.length ≤ 67 + (toString call.revision).toList.length) ∧
      a.name ∉ before.used ∧
      a.rendered = some call.bundle ∧ a.result = call.render call.bundle ∧
      after.directory = some after.files ∧
      (∀ name, name ≠ a.name → after.files.find? name = before.files.find? name) ∧
      (after.files.find? a.name = if keep then some call.bundle else none) ∧
      (a.name ∉ (directory.getD .empty).keys →
        a.name ∉ before.files.keys ∧
        after.files =
          if keep then ⟨before.files.entries ++ [(a.name, call.bundle)]⟩ else before.files) := by
  intro before a after
  have hfollows := Sandbox.follows_run keep { directory, ids } earlier
  have hnew : ¬Offers ids earlier.length a.name := hfollows.not_offers_name hids
  have hstem : ∀ c ∈ (before.ids.sequence (before.ids.drawn + 1)).toList.take 8, c.isAlphanum = true := by
    rw [hfollows.sequence_eq, hfollows.drawn_eq]
    exact hids.isAlphanum_stem (ids.drawn + earlier.length + 1) (by omega) (by omega)
  refine ⟨⟨isFileName_moduleName hstem, length_moduleName_le ..⟩, fun hused => ?_,
    rendered_attempt .., result_attempt .., rfl, fun name => call.find?_attempt_of_ne keep before,
    call.find?_attempt_self keep before, fun hvacant => ?_⟩
  · rcases hfollows.offered _ hused with hnone | hoffered
    · cases hnone
    · exact hnew hoffered
  · have hmem : a.name ∉ before.files.keys := by
      intro hkey
      rcases hfollows.keys _ hkey with hkey | hoffered
      · exact hvacant hkey
      · exact hnew hoffered
    exact ⟨hmem, call.directory_attempt_of_not_mem keep before hmem⟩

/-- Identifiers of one digit each. -/
def repeating : IdSupply := { sequence := fun k => String.ofList (List.replicate 32 (Text.hexDigit k)) }

/-- A directory that holds something else. -/
def noted : ModuleDirectory := ⟨[("notes.txt", "not a module")]⟩

/-- A call for a project that is called like a path, which the toolchain cannot render. -/
def strayCall : RenderCall where
  project := "../p 1"
  revision := 2
  bundle := "é"
  render _ := .error .unreadable

theorem repeating_drawsApart : repeating.DrawsApart 2 where
  length_stem k hlow hhigh := by
    obtain rfl | rfl : k = 1 ∨ k = 2 := by simp only [repeating] at hlow hhigh; omega
    all_goals decide
  isAlphanum_stem k hlow hhigh := by
    obtain rfl | rfl : k = 1 ∨ k = 2 := by simp only [repeating] at hlow hhigh; omega
    all_goals exact List.all_eq_true.1 (by decide)
  stem_ne j k hlow hlt hhigh := by
    obtain ⟨rfl, rfl⟩ : j = 1 ∧ k = 2 := by simp only [repeating] at hlow hhigh; omega
    decide

theorem attempt_of_run_stray :
    let before := Sandbox.run true { directory := some noted, ids := repeating } [strayCall]
    let a := strayCall.attempt true before
    let after := before.after true strayCall
    repeating.DrawsApart 2 ∧ before.used = ["landing-___p_1-2-4a99557e4033-11111111.mjs"] ∧
      a.name = "landing-___p_1-2-4a99557e4033-22222222.mjs" ∧
      IsFileName a.name.toList ∧ a.name ∉ before.used ∧ a.result = .error .unreadable ∧
      after.directory = some ⟨before.files.entries ++ [(a.name, "é")]⟩ := by
  intro before a after
  have hname : a.name = "landing-___p_1-2-4a99557e4033-22222222.mjs" := by decide +kernel
  have hvacant : a.name ∉ noted.keys := by
    rw [hname]
    decide
  obtain ⟨⟨hfile, -⟩, hnew, -, hresult, hmade, -, -, hrest⟩ :=
    attempt_of_run repeating (some noted) true [strayCall] strayCall repeating_drawsApart
  have hafter : after.files = ⟨before.files.entries ++ [(a.name, "é")]⟩ := (hrest hvacant).2
  exact ⟨repeating_drawsApart, by decide +kernel, hname, hfile, hnew, hresult, hafter ▸ hmade⟩

/-- A file that was left by the name which a module is given. -/
def leftover : ModuleDirectory := ⟨[("landing-___p_1-2-4a99557e4033-11111111.mjs", "left over")]⟩

/-- The directory is not always as it was before a call. The first call makes it, and where there is a file by
the name of the module, the call leaves none if files are not kept, and none in addition if they are. -/
theorem leftover_lost :
    let fresh : Sandbox := { directory := none, ids := repeating }
    let littered : Sandbox := { directory := some leftover, ids := repeating }
    repeating.DrawsApart 1 ∧
      (fresh.after false strayCall).directory = some .empty ∧
      littered.files = leftover ∧ (littered.after false strayCall).files = .empty ∧
      (littered.after true strayCall).files = ⟨[((strayCall.attempt true littered).name, "é")]⟩ ∧
      (littered.after true strayCall).files.keys = littered.files.keys := by
  refine ⟨?_, ?_, rfl, ?_, ?_, ?_⟩
  · exact repeating_drawsApart.mono (by decide)
  all_goals decide +kernel

end Bundle

end VersionedSite
