/-!
# Text as bytes

Each character is written in one to four bytes. Bytes are read back one at a time: what is read so
far of a character is a state, and a byte that cannot go on from there ends the character as a fault
and is looked at again on its own. So a fault covers the longest run of bytes that a character could
begin with.

* `decode?_encode`: what was written is read back.
* `decodeLossy_encode`: reading with replacement does the same.
-/

namespace VersionedSite.Text.Utf8

/-- The bytes of one character. -/
def encodeChar (c : Char) : List UInt8 :=
  let n := c.toNat
  if n < 0x80 then [.ofNat n]
  else if n < 0x800 then [.ofNat (0xc0 + n / 64), .ofNat (0x80 + n % 64)]
  else if n < 0x10000 then
    [.ofNat (0xe0 + n / 4096), .ofNat (0x80 + n / 64 % 64), .ofNat (0x80 + n % 64)]
  else
    [.ofNat (0xf0 + n / 262144), .ofNat (0x80 + n / 4096 % 64), .ofNat (0x80 + n / 64 % 64),
      .ofNat (0x80 + n % 64)]

/-- The bytes of a text. -/
def encode (s : List Char) : List UInt8 := s.flatMap encodeChar

/-- How far a character has been read. -/
inductive Progress where
  /-- Between characters. -/
  | idle
  /-- Inside a character: the bytes still to come, the least and the greatest value of the next one,
  and what the bytes so far amount to. -/
  | inside (more low high value : Nat)
  deriving DecidableEq, Repr

/-- A character, or a fault. -/
abbrev Reading := Option Char

/-- A byte at the start of a character. -/
def begin (b : Nat) : List Reading × Progress :=
  if b < 0x80 then ([some (.ofNat b)], .idle)
  else if 0xc2 ≤ b ∧ b ≤ 0xdf then ([], .inside 1 0x80 0xbf (b - 0xc0))
  else if 0xe0 ≤ b ∧ b ≤ 0xef then
    ([], .inside 2 (if b = 0xe0 then 0xa0 else 0x80) (if b = 0xed then 0x9f else 0xbf) (b - 0xe0))
  else if 0xf0 ≤ b ∧ b ≤ 0xf4 then
    ([], .inside 3 (if b = 0xf0 then 0x90 else 0x80) (if b = 0xf4 then 0x8f else 0xbf) (b - 0xf0))
  else ([none], .idle)

/-- One more byte. -/
def Progress.read (b : Nat) : Progress → List Reading × Progress
  | idle => begin b
  | inside more low high value =>
    if low ≤ b ∧ b ≤ high then
      let value := value * 64 + (b - 0x80)
      if more ≤ 1 then ([some (.ofNat value)], idle) else ([], inside (more - 1) 0x80 0xbf value)
    else (none :: (begin b).1, (begin b).2)

/-- What bytes are read as, from some point of a character on. -/
def readings : Progress → List UInt8 → List Reading
  | .idle, [] => []
  | .inside .., [] => [none]
  | p, b :: rest => (p.read b.toNat).1 ++ readings (p.read b.toNat).2 rest

/-- The text that bytes are, if they have no fault. -/
def decode? (bytes : List UInt8) : Option (List Char) := (readings .idle bytes).mapM id

/-- The text that bytes are, with a replacement character for each fault. -/
def decodeLossy (bytes : List UInt8) : List Char :=
  (readings .idle bytes).map fun c => c.getD '\ufffd'

/-! ## Reading back -/

theorem toNat_ofNat_of_lt {n : Nat} (h : n < 256) : (UInt8.ofNat n).toNat = n := by
  simp [Nat.mod_eq_of_lt h]

theorem ofNat_toNat_char (c : Char) {n : Nat} (h : n = c.toNat) : Char.ofNat n = c := by
  rw [h, Char.ofNat_toNat]

/-- Reading the bytes of a character gives the character and leaves nothing begun. -/
theorem readings_encodeChar (c : Char) (rest : List UInt8) :
    readings .idle (encodeChar c ++ rest) = some c :: readings .idle rest := by
  have hv : c.toNat < 0xd800 ∨ 0xdfff < c.toNat ∧ c.toNat < 0x110000 := c.valid
  unfold encodeChar
  dsimp only
  split
  · rename_i h
    simp only [List.cons_append, List.nil_append, readings, Progress.read]
    rw [toNat_ofNat_of_lt (by omega)]
    simp only [begin, if_pos h, List.cons_append, List.nil_append, Char.ofNat_toNat]
  · split
    · simp only [List.cons_append, List.nil_append, readings, Progress.read]
      rw [toNat_ofNat_of_lt (by omega), toNat_ofNat_of_lt (by omega)]
      simp only [begin]
      rw [if_neg (by omega), if_pos (by omega)]
      dsimp only
      rw [if_pos (by omega), if_pos (by omega)]
      simp only [List.cons_append, List.nil_append, List.cons.injEq, Option.some.injEq, and_true]
      exact ofNat_toNat_char c (by omega)
    · split
      · simp only [List.cons_append, List.nil_append, readings, Progress.read]
        rw [toNat_ofNat_of_lt (by omega), toNat_ofNat_of_lt (by omega),
          toNat_ofNat_of_lt (by omega)]
        simp only [begin]
        rw [if_neg (by omega), if_neg (by omega), if_pos (by omega)]
        dsimp only
        rw [if_pos (by split <;> split <;> omega), if_neg (by omega)]
        dsimp only
        rw [if_pos (by omega), if_pos (by omega)]
        simp only [List.cons_append, List.nil_append, List.cons.injEq, Option.some.injEq, and_true]
        exact ofNat_toNat_char c (by omega)
      · simp only [List.cons_append, List.nil_append, readings, Progress.read]
        rw [toNat_ofNat_of_lt (by omega), toNat_ofNat_of_lt (by omega),
          toNat_ofNat_of_lt (by omega), toNat_ofNat_of_lt (by omega)]
        simp only [begin]
        rw [if_neg (by omega), if_neg (by omega), if_neg (by omega), if_pos (by omega)]
        dsimp only
        rw [if_pos (by split <;> split <;> omega), if_neg (by omega)]
        dsimp only
        rw [if_pos (by omega), if_neg (by omega)]
        dsimp only
        rw [if_pos (by omega), if_pos (by omega)]
        simp only [List.cons_append, List.nil_append, List.cons.injEq, Option.some.injEq, and_true]
        exact ofNat_toNat_char c (by omega)

theorem readings_encode (s : List Char) : readings .idle (encode s) = s.map some := by
  induction s with
  | nil => rfl
  | cons c s ih =>
    have h : encode (c :: s) = encodeChar c ++ encode s := rfl
    rw [h, readings_encodeChar, ih, List.map_cons]

theorem decode?_encode (s : List Char) : decode? (encode s) = some s := by
  rw [decode?, readings_encode]
  induction s with
  | nil => rfl
  | cons c s ih => simp_all [List.mapM_cons]

theorem decodeLossy_encode (s : List Char) : decodeLossy (encode s) = s := by
  simp [decodeLossy, readings_encode, Function.comp_def]

end VersionedSite.Text.Utf8
