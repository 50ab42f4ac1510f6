import VersionedSite.Digest.Sha256

/-!
# Keyed digests

A digest that only the holder of a key can calculate. Keys longer than a block are digested first.

* `length_keyBlock`: every key fills exactly one block.
-/

namespace VersionedSite.Digest

/-- A key made to fill a block. -/
def keyBlock (key : List UInt8) : List UInt8 :=
  let key := if key.length > 64 then sha256 key else key
  key ++ List.replicate (64 - key.length) 0

/-- The keyed digest of bytes. -/
def mac (key bytes : List UInt8) : List UInt8 :=
  let block := keyBlock key
  sha256 (block.map (· ^^^ 0x5c) ++ sha256 (block.map (· ^^^ 0x36) ++ bytes))

theorem length_keyBlock (key : List UInt8) : (keyBlock key).length = 64 := by
  unfold keyBlock
  dsimp only
  split
  · simp [length_sha256]
  · simp only [List.length_append, List.length_replicate]
    omega

end VersionedSite.Digest
