import VersionedSite.Proofs.PreviewToken

/-!
# Tokens that nobody signed

A token is signed if it is a payload, a dot and the signature of that very payload (`IsSigned`). No other
text is good for anything, whatever it is asked for and whenever: it is refused, unless its payload can be
read and its signature is not in ASCII, for such signatures cannot be compared
(`verify_of_not_isSigned`). Then there is a fault instead of a refusal, also for somebody who holds no
token at all (`verify_of_accented_signature`).

* `halves?_eq_some_iff`: the two halves of a token.
* `not_isSigned_of_not_isHexDigit`: what no signature is made of.
-/

namespace VersionedSite

open Text

namespace TokenSigner

variable {s : TokenSigner} {token : String} {digits signature text : List Char}

/-! ## The two halves -/

/-- Whether a text is two texts with a dot between them, and has no other dots. -/
def Joins (digits signature token : List Char) : Prop :=
  token = digits ++ '.' :: signature ∧ '.' ∉ digits ∧ '.' ∉ signature

theorem Joins.unique {digits' signature' t : List Char} (h : Joins digits signature t)
    (h' : Joins digits' signature' t) : digits' = digits ∧ signature' = signature := by
  have hbreak := breakOn?_of_not_mem h.2.1 signature
  rw [← h.1, h'.1, breakOn?_of_not_mem h'.2.1, Option.some_inj] at hbreak
  exact Prod.mk.inj hbreak

theorem halves?_eq_some_iff {t : List Char} :
    halves? t = some (digits, signature) ↔ Joins digits signature t := by
  constructor
  · intro h
    obtain ⟨⟨before, behind⟩, hbreak, hone⟩ := Option.bind_eq_some_iff.1 h
    dsimp only at hone
    split at hone
    · cases hone
    · rename_i hdot
      cases hone
      have hsplit := eq_append_of_breakOn? hbreak
      -- The first dot is the one in front of which there is none.
      obtain ⟨first, rest, he, hfirst⟩ := List.eq_append_cons_of_mem
        (show '.' ∈ t by rw [hsplit]; simp)
      rw [he, breakOn?_of_not_mem hfirst, Option.some_inj] at hbreak
      cases hbreak
      exact ⟨he, hfirst, by simpa using hdot⟩
  · rintro ⟨rfl, hdigits, hsignature⟩
    have hone : signature.contains '.' = false := by simpa using hsignature
    rw [halves?, breakOn?_of_not_mem hdigits, Option.bind_some]
    simp only [hone, Bool.false_eq_true, if_false]

/-! ## Verdicts -/

/-- Whether a token is a payload with the signature of that payload. -/
def IsSigned (s : TokenSigner) (token : String) : Prop :=
  ∃ digits text, Joins digits (s.sign text) token.toList ∧ payload? digits = some text

/-- Whether a token is a payload with a signature that is not in ASCII. -/
def IsBeyondAscii (token : String) : Prop :=
  ∃ digits signature, Joins digits signature token.toList ∧ (payload? digits).isSome = true ∧
    ∃ c ∈ signature, 0x80 ≤ c.toNat

theorem not_isSigned_of_not_isHexDigit (hs : s.SignsInHex) (h : Joins digits signature token.toList)
    {c : Char} (hc : c ∈ signature) (hhex : ¬IsHexDigit c) : ¬s.IsSigned token := by
  rintro ⟨digits', text, hjoins, -⟩
  obtain ⟨-, rfl⟩ := hjoins.unique h
  exact hhex (hs text c hc)

/-- What is not even a payload with some signature is refused. -/
theorem verify_of_unreadable (h : ∀ digits signature, Joins digits signature token.toList →
      payload? digits = none) (now : Number) (project : String) (revision : Int) :
    s.verify now token project revision = .refused := by
  cases hh : halves? token.toList with
  | none => exact verify_of_not_two hh
  | some found =>
    obtain ⟨digits, signature⟩ := found
    have hnone := h digits signature (halves?_eq_some_iff.1 hh)
    rw [verify, hh, Option.bind_some]
    simp only [hnone, Option.map_none]

/-- A payload with a signature that is not its own is refused, if the signature is in ASCII. -/
theorem verify_of_joins (h : Joins digits signature token.toList) (hp : payload? digits = some text)
    (hs : ¬s.IsSigned token) (now : Number) (project : String) (revision : Int) :
    s.verify now token project revision =
      if signature.any fun c => 0x80 ≤ c.toNat then .fault .signatureText else .refused := by
  have hh := halves?_eq_some_iff.2 h
  have hne : signature ≠ s.sign text := by
    rintro rfl
    exact hs ⟨digits, text, h, hp⟩
  cases ha : signature.any fun c => 0x80 ≤ c.toNat with
  | true =>
    simp only [verify, hh, Option.bind_some, hp, Option.map_some, ha, if_true]
  | false =>
    rw [verify_of_signature_ne hh hp ha hne]
    rfl

/-- A token that is not signed is refused at every time and for every project and revision, unless its
payload can be read and its signature is not in ASCII; then there is a fault. -/
theorem verify_of_not_isSigned (h : ¬s.IsSigned token) (now : Number) (project : String)
    (revision : Int) :
    (s.verify now token project revision = .refused ↔ ¬IsBeyondAscii token) ∧
      (s.verify now token project revision = .fault .signatureText ↔ IsBeyondAscii token) := by
  by_cases hread : ∃ digits signature text,
      Joins digits signature token.toList ∧ payload? digits = some text
  · obtain ⟨digits, signature, text, hjoins, hp⟩ := hread
    have hbeyond : IsBeyondAscii token ↔ (signature.any fun c => 0x80 ≤ c.toNat) = true := by
      rw [List.any_eq_true]
      simp only [decide_eq_true_eq]
      constructor
      · rintro ⟨digits', signature', hjoins', -, hc⟩
        obtain ⟨-, rfl⟩ := hjoins.unique hjoins'
        exact hc
      · exact fun hc => ⟨digits, signature, hjoins, by rw [hp]; rfl, hc⟩
    rw [verify_of_joins hjoins hp h, hbeyond]
    cases signature.any fun c => 0x80 ≤ c.toNat <;> simp
  · have hunread : ∀ digits signature, Joins digits signature token.toList → payload? digits = none :=
      fun digits signature hjoins => Option.eq_none_iff_forall_ne_some.2 fun text hp =>
        hread ⟨digits, signature, text, hjoins, hp⟩
    have hascii : ¬IsBeyondAscii token := by
      rintro ⟨digits, signature, hjoins, hsome, -⟩
      rw [hunread digits signature hjoins] at hsome
      cases hsome
    rw [verify_of_unreadable hunread]
    exact ⟨iff_of_true rfl hascii, iff_of_false nofun hascii⟩

/-- A signature in capital digits is none. -/
theorem verify_of_not_isSigned_capitals :
    let s := ofSecret "secret" (.int 300)
    ¬s.IsSigned "e30.DEADBEEF" ∧ ¬IsBeyondAscii "e30.DEADBEEF" ∧
      s.verify (.int 1700000000) "e30.DEADBEEF" "shop" 2 = .refused := by
  intro s
  have hjoins : Joins "e30".toList "DEADBEEF".toList "e30.DEADBEEF".toList := by
    unfold Joins
    decide
  have hsigned : ¬s.IsSigned "e30.DEADBEEF" :=
    not_isSigned_of_not_isHexDigit (signsInHex_ofSecret _ _) hjoins (c := 'D') (by decide)
      (by unfold IsHexDigit; decide)
  have hascii : ¬IsBeyondAscii "e30.DEADBEEF" := by
    rintro ⟨digits, signature, hjoins', -, c, hc, hbeyond⟩
    obtain ⟨-, rfl⟩ := hjoins.unique hjoins'
    have hall : ("DEADBEEF".toList.all fun c => decide (c.toNat < 0x80)) = true := by decide
    exact absurd (of_decide_eq_true (List.all_eq_true.1 hall c hc)) (Nat.not_lt.2 hbeyond)
  exact ⟨hsigned, hascii, (verify_of_not_isSigned hsigned _ _ _).1.2 hascii⟩

/-- Nobody has to hold a token to get a fault. -/
theorem verify_of_accented_signature :
    let s := ofSecret "secret" (.int 300)
    ¬s.IsSigned "e30.é" ∧ s.verify (.int 1700000000) "e30.é" "shop" 2 = .fault .signatureText := by
  intro s
  have hjoins : Joins "e30".toList "é".toList "e30.é".toList := by
    unfold Joins
    decide
  have hsigned : ¬s.IsSigned "e30.é" :=
    not_isSigned_of_not_isHexDigit (signsInHex_ofSecret _ _) hjoins (c := 'é') (by decide)
      (by unfold IsHexDigit; decide)
  have hpayload : payload? "e30".toList = some "{}".toList := by decide +kernel
  exact ⟨hsigned, verify_of_joins hjoins hpayload hsigned _ _ _⟩

end TokenSigner

end VersionedSite
