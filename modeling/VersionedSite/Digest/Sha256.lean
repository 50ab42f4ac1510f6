import VersionedSite.Text.Hex

/-!
# SHA-256

The digest of bytes, as the standard defines it: the message is padded to blocks of 64 bytes, and each
block is folded into a state of eight words.

* `length_sha256`: a digest has 32 bytes.
* `length_padding`: a padded message consists of whole blocks.
* `forall_mem_hexText`: a digest is written in hexadecimal digits.
-/

namespace VersionedSite.Digest

/-- The fractional parts of the cube roots of the first 64 primes. -/
def roundConstants : List UInt32 :=
  [0x428a2f98, 0x71374491, 0xb5c0fbcf, 0xe9b5dba5, 0x3956c25b, 0x59f111f1, 0x923f82a4, 0xab1c5ed5,
   0xd807aa98, 0x12835b01, 0x243185be, 0x550c7dc3, 0x72be5d74, 0x80deb1fe, 0x9bdc06a7, 0xc19bf174,
   0xe49b69c1, 0xefbe4786, 0x0fc19dc6, 0x240ca1cc, 0x2de92c6f, 0x4a7484aa, 0x5cb0a9dc, 0x76f988da,
   0x983e5152, 0xa831c66d, 0xb00327c8, 0xbf597fc7, 0xc6e00bf3, 0xd5a79147, 0x06ca6351, 0x14292967,
   0x27b70a85, 0x2e1b2138, 0x4d2c6dfc, 0x53380d13, 0x650a7354, 0x766a0abb, 0x81c2c92e, 0x92722c85,
   0xa2bfe8a1, 0xa81a664b, 0xc24b8b70, 0xc76c51a3, 0xd192e819, 0xd6990624, 0xf40e3585, 0x106aa070,
   0x19a4c116, 0x1e376c08, 0x2748774c, 0x34b0bcb5, 0x391c0cb3, 0x4ed8aa4a, 0x5b9cca4f, 0x682e6ff3,
   0x748f82ee, 0x78a5636f, 0x84c87814, 0x8cc70208, 0x90befffa, 0xa4506ceb, 0xbef9a3f7, 0xc67178f2]

/-- The eight words that a message is folded into. -/
structure Sha256State where
  a : UInt32
  b : UInt32
  c : UInt32
  d : UInt32
  e : UInt32
  f : UInt32
  g : UInt32
  h : UInt32
  deriving DecidableEq, Repr

namespace Sha256State

/-- The fractional parts of the square roots of the first eight primes. -/
def initial : Sha256State :=
  { a := 0x6a09e667, b := 0xbb67ae85, c := 0x3c6ef372, d := 0xa54ff53a
    e := 0x510e527f, f := 0x9b05688c, g := 0x1f83d9ab, h := 0x5be0cd19 }

/-- The words in order. -/
def words (s : Sha256State) : List UInt32 := [s.a, s.b, s.c, s.d, s.e, s.f, s.g, s.h]

/-- Word by word sum. -/
def add (s t : Sha256State) : Sha256State :=
  { a := s.a + t.a, b := s.b + t.b, c := s.c + t.c, d := s.d + t.d
    e := s.e + t.e, f := s.f + t.f, g := s.g + t.g, h := s.h + t.h }

end Sha256State

/-- A word turned right by some bits. -/
def rotateRight (x n : UInt32) : UInt32 := (x >>> n) ||| (x <<< (32 - n))

/-- One round with its constant and its word of the schedule. -/
def Sha256State.round (s : Sha256State) (k w : UInt32) : Sha256State :=
  let s1 := rotateRight s.e 6 ^^^ rotateRight s.e 11 ^^^ rotateRight s.e 25
  let ch := (s.e &&& s.f) ^^^ (~~~s.e &&& s.g)
  let t1 := s.h + s1 + ch + k + w
  let s0 := rotateRight s.a 2 ^^^ rotateRight s.a 13 ^^^ rotateRight s.a 22
  let maj := (s.a &&& s.b) ^^^ (s.a &&& s.c) ^^^ (s.b &&& s.c)
  { a := t1 + (s0 + maj), b := s.a, c := s.b, d := s.c, e := s.d + t1, f := s.e, g := s.f, h := s.g }

/-- The schedule of a block's sixteen words, extended by as many words as asked for. The newest word
comes first. -/
def extendSchedule : Nat → List UInt32 → List UInt32
  | 0, ws => ws
  | n + 1, ws =>
    let w15 := ws.getD 14 0
    let w2 := ws.getD 1 0
    let s0 := rotateRight w15 7 ^^^ rotateRight w15 18 ^^^ (w15 >>> 3)
    let s1 := rotateRight w2 17 ^^^ rotateRight w2 19 ^^^ (w2 >>> 10)
    extendSchedule n ((ws.getD 15 0 + s0 + ws.getD 6 0 + s1) :: ws)

/-- Four bytes as a word, the highest first. -/
def wordOfBytes (a b c d : UInt8) : UInt32 :=
  (a.toUInt32 <<< 24) ||| (b.toUInt32 <<< 16) ||| (c.toUInt32 <<< 8) ||| d.toUInt32

/-- Bytes as words. -/
def wordsOfBytes : List UInt8 → List UInt32
  | a :: b :: c :: d :: rest => wordOfBytes a b c d :: wordsOfBytes rest
  | _ => []

/-- A word as bytes, the highest first. -/
def bytesOfWord (w : UInt32) : List UInt8 :=
  [(w >>> 24).toUInt8, (w >>> 16).toUInt8, (w >>> 8).toUInt8, w.toUInt8]

/-- The last `width` bytes of a number, the highest first. -/
def bytesOfNat : (width n : Nat) → List UInt8
  | 0, _ => []
  | width + 1, n => bytesOfNat width (n / 256) ++ [.ofNat n]

/-- A block folded into a state. -/
def Sha256State.absorb (s : Sha256State) (block : List UInt8) : Sha256State :=
  let schedule := (extendSchedule 48 (wordsOfBytes block).reverse).reverse
  s.add ((roundConstants.zip schedule).foldl (fun s kw => s.round kw.1 kw.2) s)

/-- What is appended to a message of some bytes. -/
def padding (size : Nat) : List UInt8 :=
  0x80 :: (List.replicate ((119 - size % 64) % 64) 0 ++ bytesOfNat 8 (size * 8))

/-- Some blocks folded into a state. -/
def Sha256State.absorbBlocks : (blocks : Nat) → List UInt8 → Sha256State → Sha256State
  | 0, _, s => s
  | blocks + 1, bytes, s => absorbBlocks blocks (bytes.drop 64) (s.absorb (bytes.take 64))

/-- The digest of bytes. -/
def sha256 (bytes : List UInt8) : List UInt8 :=
  let message := bytes ++ padding bytes.length
  (Sha256State.initial.absorbBlocks (message.length / 64) message).words.flatMap bytesOfWord

/-- Bytes in hexadecimal digits. -/
def hexText (bytes : List UInt8) : List Char := bytes.flatMap fun b => Text.hex 2 b.toNat

theorem forall_mem_hexText {P : Char → Prop} (hdigit : ∀ n < 16, P (Text.hexDigit n))
    (bytes : List UInt8) : ∀ c ∈ hexText bytes, P c := by
  intro c hc
  obtain ⟨b, -, hb⟩ := List.mem_flatMap.1 hc
  exact Text.forall_mem_hex hdigit 2 b.toNat c hb

theorem length_sha256 (bytes : List UInt8) : (sha256 bytes).length = 32 := by
  simp [sha256, Sha256State.words, bytesOfWord]

theorem length_bytesOfNat (width n : Nat) : (bytesOfNat width n).length = width := by
  induction width generalizing n with
  | zero => rfl
  | succ width ih => simp [bytesOfNat, ih]

theorem length_padding (bytes : List UInt8) :
    (bytes ++ padding bytes.length).length % 64 = 0 := by
  simp only [padding, List.length_append, List.length_cons, List.length_replicate,
    length_bytesOfNat]
  omega

end VersionedSite.Digest
