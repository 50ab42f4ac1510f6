/-!
# Bytes in 64 digits

Three bytes are written as four digits of six bits each; the last group is as short as its bytes
allow, without padding. The digits beyond letters and numbers are `-` and `_`.

Reading is lenient. Text is padded to whole groups first; characters that are no digits are passed
over, `+` and `/` count as digits too, and padding that completes a group ends the text.

* `decode?_encode`: what was written is read back.
-/

namespace VersionedSite.Text.Base64

/-- The digit of a number below 64. -/
def digit (n : Nat) : Char :=
  if n < 26 then .ofNat (65 + n)
  else if n < 52 then .ofNat (71 + n)
  else if n < 62 then .ofNat (n - 4)
  else if n = 62 then '-'
  else '_'

/-- The number of a digit. -/
def digitValue? (c : Char) : Option Nat :=
  if 'A' ≤ c ∧ c ≤ 'Z' then some (c.toNat - 65)
  else if 'a' ≤ c ∧ c ≤ 'z' then some (c.toNat - 71)
  else if '0' ≤ c ∧ c ≤ '9' then some (c.toNat + 4)
  else if c = '-' ∨ c = '+' then some 62
  else if c = '_' ∨ c = '/' then some 63
  else none

/-- The digits of bytes. -/
def encode : List UInt8 → List Char
  | [] => []
  | [a] => [digit (a.toNat / 4), digit (a.toNat % 4 * 16)]
  | [a, b] =>
    [digit (a.toNat / 4), digit (a.toNat % 4 * 16 + b.toNat / 16), digit (b.toNat % 16 * 4)]
  | a :: b :: c :: rest =>
    digit (a.toNat / 4) :: digit (a.toNat % 4 * 16 + b.toNat / 16) ::
      digit (b.toNat % 16 * 4 + c.toNat / 64) :: digit (c.toNat % 64) :: encode rest

/-- How far a group has been read, with the bits that have not made up a byte yet. -/
inductive Group where
  | start
  | one (bits : Nat)
  | two (bits : Nat) (padded : Bool)
  | three (bits : Nat)
  deriving DecidableEq, Repr

/-- What one character does to a group: it is passed over, goes on with the group, or ends the text. -/
inductive Turn where
  | skip
  | next (bytes : List UInt8) (group : Group)
  | finish
  deriving DecidableEq, Repr

/-- One more digit of a group. -/
def Group.push (v : Nat) : Group → Turn
  | start => .next [] (one v)
  | one bits => .next [.ofNat (bits * 4 + v / 16)] (two (v % 16) false)
  | two bits _ => .next [.ofNat (bits * 16 + v / 4)] (three (v % 4))
  | three bits => .next [.ofNat (bits * 64 + v)] start

/-- A padding character. -/
def Group.pad : Group → Turn
  | start | one _ => .skip
  | two bits false => .next [] (two bits true)
  | two _ true | three _ => .finish

/-- One more character. -/
def Group.turn (c : Char) (g : Group) : Turn :=
  if c = '=' then g.pad
  else
    match digitValue? c with
    | some v => g.push v
    | none => .skip

/-- The bytes of padded text; nothing if it ends within a group. -/
def readGroups : Group → List Char → Option (List UInt8)
  | .start, [] => some []
  | _, [] => none
  | g, c :: rest =>
    match g.turn c with
    | .skip => readGroups g rest
    | .next bytes g => (readGroups g rest).map (bytes ++ ·)
    | .finish => some []

/-- The text with padding to whole groups of four. -/
def padded (s : List Char) : List Char := s ++ List.replicate ((4 - s.length % 4) % 4) '='

/-- The bytes of a text in ASCII, if it is one of digits. -/
def decode? (s : List Char) : Option (List UInt8) :=
  if s.all (·.toNat < 0x80) then readGroups .start (padded s) else none

/-! ## Reading back -/

theorem digit_fin (n : Fin 64) :
    digitValue? (digit n.1) = some n.1 ∧ digit n.1 ≠ '=' ∧ (digit n.1).toNat < 0x80 := by
  revert n
  decide

theorem turn_digit {n : Nat} (h : n < 64) (g : Group) : g.turn (digit n) = g.push n := by
  have hd := digit_fin ⟨n, h⟩
  simp only [Group.turn, if_neg hd.2.1, hd.1]

theorem ofNat_eq_of_toNat {a : UInt8} {n : Nat} (h : n = a.toNat) : UInt8.ofNat n = a := by
  rw [h, UInt8.ofNat_toNat]

theorem padded_cons (a b c d : Char) (s : List Char) :
    padded (a :: b :: c :: d :: s) = a :: b :: c :: d :: padded s := by
  have h : (s.length + 1 + 1 + 1 + 1) % 4 = s.length % 4 := by omega
  simp only [padded, List.length_cons, List.cons_append, h]

theorem readGroups_encode (bytes : List UInt8) :
    readGroups .start (padded (encode bytes)) = some bytes := by
  induction bytes using encode.induct with
  | case1 => rfl
  | case2 a =>
    have ha := a.toNat_lt
    simp only [encode, padded, List.length_cons, List.length_nil, List.cons_append,
      List.nil_append, readGroups]
    rw [turn_digit (by omega)]
    simp only [Group.push]
    rw [turn_digit (by omega)]
    simp only [Group.push]
    rw [ofNat_eq_of_toNat (a := a) (by omega)]
    simp [readGroups, Group.turn, Group.pad]
  | case3 a b =>
    have ha := a.toNat_lt
    have hb := b.toNat_lt
    simp only [encode, padded, List.length_cons, List.length_nil, List.cons_append,
      List.nil_append, readGroups]
    rw [turn_digit (by omega)]
    simp only [Group.push]
    rw [turn_digit (by omega)]
    simp only [Group.push]
    rw [turn_digit (by omega)]
    simp only [Group.push]
    rw [ofNat_eq_of_toNat (a := a) (by omega), ofNat_eq_of_toNat (a := b) (by omega)]
    simp [readGroups, Group.turn, Group.pad]
  | case4 a b c rest ih =>
    have ha := a.toNat_lt
    have hb := b.toNat_lt
    have hc := c.toNat_lt
    rw [encode, padded_cons]
    simp only [readGroups]
    rw [turn_digit (by omega)]
    simp only [Group.push]
    rw [turn_digit (by omega)]
    simp only [Group.push]
    rw [turn_digit (by omega)]
    simp only [Group.push]
    rw [turn_digit (by omega)]
    simp only [Group.push, ih]
    rw [ofNat_eq_of_toNat (a := a) (by omega), ofNat_eq_of_toNat (a := b) (by omega),
      ofNat_eq_of_toNat (a := c) (by omega)]
    rfl

/-- What holds of all digits holds of all that is written. -/
theorem forall_mem_encode {P : Char → Prop} (h : ∀ n < 64, P (digit n)) (bytes : List UInt8) :
    ∀ c ∈ encode bytes, P c := by
  induction bytes using encode.induct with
  | case1 => simp [encode]
  | case2 a =>
    have ha := a.toNat_lt
    simp only [encode, List.forall_mem_cons, List.not_mem_nil, false_implies, implies_true, and_true]
    exact ⟨h _ (by omega), h _ (by omega)⟩
  | case3 a b =>
    have ha := a.toNat_lt
    have hb := b.toNat_lt
    simp only [encode, List.forall_mem_cons, List.not_mem_nil, false_implies, implies_true, and_true]
    exact ⟨h _ (by omega), h _ (by omega), h _ (by omega)⟩
  | case4 a b c rest ih =>
    have ha := a.toNat_lt
    have hb := b.toNat_lt
    have hc := c.toNat_lt
    simp only [encode, List.forall_mem_cons]
    exact ⟨h _ (by omega), h _ (by omega), h _ (by omega), h _ (by omega), ih⟩

theorem encode_ascii (bytes : List UInt8) : (encode bytes).all (·.toNat < 0x80) = true := by
  have hdigit : ∀ n < 64, (digit n).toNat < 0x80 := fun n hn => (digit_fin ⟨n, hn⟩).2.2
  simpa only [List.all_eq_true, decide_eq_true_iff] using forall_mem_encode hdigit bytes

theorem decode?_encode (bytes : List UInt8) : decode? (encode bytes) = some bytes := by
  rw [decode?, if_pos (encode_ascii bytes), readGroups_encode]

end VersionedSite.Text.Base64
