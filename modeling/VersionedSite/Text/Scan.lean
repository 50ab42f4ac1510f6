import VersionedSite.Text.Search

/-!
# Cutting a text up by a recogniser

A recogniser looks at the head of a text and either answers what stands there together with the rest
of the text, or nothing. `scan` applies it from left to right: at each place where it answers, the
recognised piece is cut out and the scan goes on behind it; everywhere else one character is passed.

* `scanFrom_eq_scan_drop`: passing over characters is dropping them.
* `scan_cons_of_none`, `scan_cons_of_some`: one step of the scan.
* `substitute_append`, `substitute_mark`: what becomes of a text in which a mark is replaced.
-/

namespace VersionedSite.Text

/-- A piece of a text: a character that was passed, or something recognised. -/
inductive Piece (α : Type) where
  | char (c : Char)
  | hit (a : α)

/-- What a recogniser answers at the head of a text: the finding and the rest behind it. -/
abbrev Recogniser (α : Type) := List Char → Option (α × List Char)

variable {α : Type}

/-- The pieces of a text from which the first `skip` characters have been recognised already. -/
def scanFrom (r : Recogniser α) : (skip : Nat) → List Char → List (Piece α)
  | _, [] => []
  | skip + 1, _ :: s => scanFrom r skip s
  | 0, c :: s =>
    match r (c :: s) with
    | some (a, rest) => .hit a :: scanFrom r (s.length - rest.length) s
    | none => .char c :: scanFrom r 0 s

/-- The pieces of a text. -/
def scan (r : Recogniser α) (s : List Char) : List (Piece α) := scanFrom r 0 s

theorem scanFrom_eq_scan_drop (r : Recogniser α) (skip : Nat) (s : List Char) :
    scanFrom r skip s = scan r (s.drop skip) := by
  induction s generalizing skip with
  | nil => simp [scan, scanFrom]
  | cons c s ih =>
    cases skip with
    | zero => rfl
    | succ k => simpa [scanFrom] using ih k

theorem scan_cons_of_none {r : Recogniser α} {c : Char} {s : List Char} (h : r (c :: s) = none) :
    scan r (c :: s) = .char c :: scan r s := by
  simp [scan, scanFrom, h]

theorem scan_cons_of_some {r : Recogniser α} {c : Char} {s rest : List Char} {a : α}
    (h : r (c :: s) = some (a, rest)) (hs : rest <:+ s) :
    scan r (c :: s) = .hit a :: scan r rest := by
  obtain ⟨taken, rfl⟩ := hs
  rw [scan, scanFrom]
  simp only [h]
  rw [scanFrom_eq_scan_drop]
  simp

/-- What a scan recognises, in order. -/
def findings (r : Recogniser α) (s : List Char) : List α :=
  (scan r s).filterMap fun
    | .hit a => some a
    | .char _ => none

/-- What a scan passes over: the text without everything recognised. -/
def remainder (r : Recogniser α) (s : List Char) : List Char :=
  (scan r s).filterMap fun
    | .hit _ => none
    | .char c => some c

/-- Whether a recogniser answers at any place of a text. -/
def anywhere (r : Recogniser α) : List Char → Bool
  | [] => (r []).isSome
  | c :: s => (r (c :: s)).isSome || anywhere r s

/-! ## Replacing -/

/-- A text with `replacement` in all places where `mark` stands. -/
def substitute (mark replacement s : List Char) : List Char :=
  (scan (fun s => (after? mark s).map fun rest => ((), rest)) s).flatMap fun
    | .hit _ => replacement
    | .char c => [c]

variable {m : Char} {mark replacement s : List Char}

theorem substitute_append (h : m ∉ s) (t : List Char) :
    substitute (m :: mark) replacement (s ++ t) = s ++ substitute (m :: mark) replacement t := by
  induction s with
  | nil => rfl
  | cons c s ih =>
    rw [List.mem_cons, not_or] at h
    have hc : (c == m) = false := beq_false_of_ne (Ne.symm h.1)
    rw [List.cons_append, substitute, scan_cons_of_none (by simp [after?, hc]), List.flatMap_cons,
      ← substitute, ih h.2]
    rfl

theorem substitute_mark (t : List Char) :
    substitute (m :: mark) replacement (m :: (mark ++ t)) =
      replacement ++ substitute (m :: mark) replacement t := by
  have hafter : after? (m :: mark) (m :: (mark ++ t)) = some t := after?_append (m :: mark) t
  rw [substitute, scan_cons_of_some (by rw [hafter]; rfl) (List.suffix_append mark t),
    List.flatMap_cons, ← substitute]

end VersionedSite.Text
