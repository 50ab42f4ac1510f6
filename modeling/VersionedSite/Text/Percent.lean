import VersionedSite.Text.Hex
import VersionedSite.Text.Utf8

/-!
# Percent signs

In an address a byte can be written as a percent sign and two hexadecimal digits. A percent sign with
anything else behind it stands for itself.

* `decode_of_not_mem`: a text without percent signs is what it says.
-/

namespace VersionedSite.Text.Percent

/-- The bytes that a text stands for. -/
def bytes : List Char → List UInt8
  | [] => []
  | '%' :: a :: b :: rest =>
    match hexValue? a, hexValue? b with
    | some high, some low => .ofNat (high * 16 + low) :: bytes rest
    | _, _ => Utf8.encodeChar '%' ++ bytes (a :: b :: rest)
  | c :: rest => Utf8.encodeChar c ++ bytes rest

/-- The text that a text stands for. -/
def decode (s : List Char) : List Char := Utf8.decodeLossy (bytes s)

theorem bytes_cons {c : Char} (h : c ≠ '%') (rest : List Char) :
    bytes (c :: rest) = Utf8.encodeChar c ++ bytes rest := by
  rw [bytes]
  intro _ _ _ hc
  exact absurd hc h

theorem bytes_of_not_mem {s : List Char} (h : '%' ∉ s) : bytes s = Utf8.encode s := by
  induction s with
  | nil => rfl
  | cons c rest ih =>
    simp only [List.mem_cons, not_or] at h
    rw [bytes_cons (Ne.symm h.1), ih h.2]
    rfl

theorem decode_of_not_mem {s : List Char} (h : '%' ∉ s) : decode s = s := by
  rw [decode, bytes_of_not_mem h, Utf8.decodeLossy_encode]

end VersionedSite.Text.Percent
