import VersionedSite.PreviewToken
import VersionedSite.Proofs.Json.Reading
import VersionedSite.Proofs.Number.Exact
import VersionedSite.Proofs.Text.Search

/-!
# What a token is good for

A token that was issued is read back whole: its two halves, the bytes, the characters and the JSON. So
it is good for the project and the revision that it was issued for, as long as its time lasts, and for
nothing else (`verify_issued`).

* `payload?_encode`, `halves?_tokenOf`: the parts of a token are found again.
* `parse_payload`: so is the payload, if its numbers are not too long.
* `millis?_of_shows`: readings of the clock in whole seconds are reckoned with exactly.
-/

namespace VersionedSite

open Text

theorem Text.Base64.dot_not_mem_encode (bytes : List UInt8) : '.' ∉ encode bytes := by
  have hdigit : ∀ n < 64, digit n ≠ '.' := by decide
  exact fun hin => forall_mem_encode (P := fun c => c ≠ '.') hdigit bytes '.' hin rfl

namespace TokenSigner

/-! ## Signatures -/

/-- Whether a character is a hexadecimal digit in lower case. -/
def IsHexDigit (c : Char) : Prop := ('0' ≤ c ∧ c ≤ '9') ∨ ('a' ≤ c ∧ c ≤ 'f')

/-- A signer whose signatures are hexadecimal texts. -/
def SignsInHex (s : TokenSigner) : Prop := ∀ text, ∀ c ∈ s.sign text, IsHexDigit c

theorem isHexDigit_hexDigit : ∀ n < 16, IsHexDigit (hexDigit n) := by
  unfold IsHexDigit
  decide

/-- The digest that signs under a secret is written in hexadecimal digits. -/
theorem signsInHex_ofSecret (secret : String) (life : Number) : (ofSecret secret life).SignsInHex :=
  fun _ => Digest.forall_mem_hexText isHexDigit_hexDigit _

theorem IsHexDigit.ascii {c : Char} (h : IsHexDigit c) : c.toNat < 0x80 := by
  rcases h with ⟨-, h⟩ | ⟨-, h⟩
  · have hle : c.toNat ≤ '9'.toNat := h
    exact Nat.lt_of_le_of_lt hle (by decide)
  · have hle : c.toNat ≤ 'f'.toNat := h
    exact Nat.lt_of_le_of_lt hle (by decide)

theorem not_isHexDigit_dot : ¬ IsHexDigit '.' := by
  unfold IsHexDigit
  decide

/-! ## The parts of a token -/

variable {s : TokenSigner} {text : List Char}

theorem halves?_tokenOf (hs : s.SignsInHex) (text : List Char) :
    halves? (s.tokenOf text) = some (Base64.encode (Utf8.encode text), s.sign text) := by
  have hdot : (s.sign text).contains '.' = false := by
    rw [List.contains_eq_mem, decide_eq_false_iff_not]
    exact fun hin => not_isHexDigit_dot (hs text '.' hin)
  rw [halves?, tokenOf, breakOn?_of_not_mem (Base64.dot_not_mem_encode _), Option.bind_some]
  simp only [hdot, Bool.false_eq_true, if_false]

theorem payload?_encode (text : List Char) :
    payload? (Base64.encode (Utf8.encode text)) = some text := by
  rw [payload?, Base64.decode?_encode, Option.bind_some, Utf8.decode?_encode]

/-- A token that its own signer made is judged by its payload. -/
theorem verify_tokenOf (hs : s.SignsInHex) {payload : Json}
    (hp : Json.parse payloadDialect (String.ofList text) = .ok payload) (now : Number)
    (project : String) (revision : Int) :
    s.verify now (String.ofList (s.tokenOf text)) project revision =
      judge now project revision payload := by
  have hascii : (s.sign text).any (fun c => 0x80 ≤ c.toNat) = false := by
    rw [List.any_eq_false]
    intro c hc
    rw [decide_eq_true_iff]
    exact Nat.not_le.2 (hs text c hc).ascii
  rw [verify, String.toList_ofList, halves?_tokenOf hs, Option.bind_some]
  simp only [payload?_encode, Option.map_some, hascii, ne_eq, not_true, Bool.false_eq_true, if_false, hp]

/-! ## Payloads -/

theorem admits_iff {n : Int} : payloadDialect.Admits n ↔ isWritable n = true := by
  simp [Json.Dialect.Admits, payloadDialect, isWritable]

/-- The payload of a token is read back, if its numbers are not too long. -/
theorem parse_payload {revision expiry : Int} (project user : String)
    (hr : isWritable revision = true) (he : isWritable expiry = true) :
    Json.parse payloadDialect ((payload project revision user expiry).render Json.compact) =
      .ok (payload project revision user expiry) := by
  refine Json.parse_render_obj ?_ ?_ ?_
  · simp only [List.forall_mem_cons]
    exact ⟨Json.readsBack_str _, Json.readsBack_int (admits_iff.2 hr), Json.readsBack_str _,
      Json.readsBack_int (admits_iff.2 he), by simp⟩
  · show ["p", "r", "u", "exp"].Nodup
    decide
  · decide

theorem judge_payload {now : Number} {time : Int} (hnow : millis? now = some time)
    (project project' user : String) (revision revision' expiry : Int) :
    judge now project' revision' (payload project revision user expiry) =
      if project' = project ∧ revision' = revision ∧ time ≤ expiry then .granted (.str user)
      else .refused := by
  have hsame : ((project == project') && (revision == revision')) = true ↔
      project' = project ∧ revision' = revision := by
    rw [Bool.and_eq_true, beq_iff_eq, beq_iff_eq, @eq_comm _ project, @eq_comm _ revision]
  unfold judge payload
  simp only [Json.lookup, String.reduceEq, if_false, if_true, Option.getD_some, hnow, numberOf?, Json.int,
    Number.less_int, Option.any_some, isText, isWhole, Number.same_int, decide_eq_true_eq, hsame]
  by_cases he : expiry < time
  · rw [if_pos he, if_neg fun h => absurd h.2.2 (Int.not_le.2 he)]
  · rw [if_neg he]
    simp only [Int.not_lt.1 he, and_true]

/-! ## Readings of the clock -/

/-- Whether a reading of the clock is a whole number of seconds: one of any size that is reckoned with
exactly, or one of double precision whose milliseconds have at most 53 bits. -/
def Shows (now : Number) (time : Int) : Prop :=
  now = .int time ∨ ∃ x, now = .real x ∧ x.value? = some (time : ℚ) ∧ |time * 1000| < 2 ^ 53

theorem millis?_of_shows {now : Number} {time : Int} (h : Shows now time) :
    millis? now = some (time * 1000) := by
  rcases h with rfl | ⟨x, rfl, hx, hlt⟩
  · rfl
  · have hthousand : (Binary.ofInt 1000).value? = some ((1000 : Int) : ℚ) :=
      Binary.value?_ofInt (by norm_num)
    have hproduct := Binary.truncate?_eq (Binary.value?_mul hx hthousand hlt)
    exact hproduct

/-- The double of a time in whole seconds shows it, unless it has too many bits. -/
theorem shows_ofInt {time : Int} (hlt : |time * 1000| < 2 ^ 53) :
    Shows (.real (.ofInt time)) time := by
  have hshort : |time| < 2 ^ 53 := by
    rw [abs_lt] at *
    constructor <;> omega
  exact .inr ⟨_, rfl, Binary.value?_ofInt hshort, hlt⟩

/-- What comes some seconds after a reading, reckoned with exactly. -/
theorem shows_add {now : Number} {time life : Int} (h : Shows now time)
    (hlt : now = .int time ∨ |(time + life) * 1000| < 2 ^ 53) :
    Shows (now.add (.int life)) (time + life) := by
  rcases h with rfl | ⟨x, rfl, hx, hbound⟩
  · exact .inl rfl
  · have hsum : |(time + life) * 1000| < 2 ^ 53 := hlt.resolve_left (by simp)
    have hlife : |life| < 2 ^ 53 := by
      rw [abs_lt] at *
      constructor <;> omega
    have hshort : |time + life| < 2 ^ 53 := by
      rw [abs_lt] at *
      constructor <;> omega
    exact .inr ⟨_, rfl, Binary.value?_add hx (Binary.value?_ofInt hlife) hshort, hsum⟩

/-! ## Tokens that were issued -/

/-- A token is issued unless its numbers are too long to be written. It is good for the project and the
revision that it was issued for, in the name of its user, as long as its time lasts; and it is refused for
every other project and revision, and later. -/
theorem verify_issued (hs : s.SignsInHex) {life : Int} (hlife : s.life = .int life) {now now' : Number}
    {time time' : Int} (hnow : Shows now time) (hnow' : Shows now' time')
    (hexact : now = .int time ∨ |(time + life) * 1000| < 2 ^ 53) (project user : String)
    (revision : Int) :
    ((∃ token, s.issue now project revision user = .ok token) ↔
      isWritable revision = true ∧ isWritable ((time + life) * 1000) = true) ∧
    ∀ token, s.issue now project revision user = .ok token →
      ∀ (project' : String) (revision' : Int),
        s.verify now' token project' revision' =
          if project' = project ∧ revision' = revision ∧ time' ≤ time + life then
            .granted (.str user)
          else .refused := by
  obtain ⟨expiry, hexpiry⟩ : ∃ expiry, expiry = (time + life) * 1000 := ⟨_, rfl⟩
  have hmillis : millis? (now.add s.life) = some expiry := by
    rw [hexpiry, hlife]
    exact millis?_of_shows (shows_add hnow hexact)
  obtain ⟨text, htext⟩ :
      ∃ text, text = ((payload project revision user expiry).render Json.compact).toList := ⟨_, rfl⟩
  have hissue : s.issue now project revision user =
      if isWritable revision && isWritable expiry then .ok (String.ofList (s.tokenOf text))
      else .error .payloadNumber := by
    rw [issue, hmillis, htext]
  rw [hissue, ← hexpiry, ← Bool.and_eq_true]
  cases hw : isWritable revision && isWritable expiry with
  | false => simp
  | true =>
    obtain ⟨hr, he⟩ := Bool.and_eq_true_iff.1 hw
    have hparse : Json.parse payloadDialect (String.ofList text) =
        .ok (payload project revision user expiry) := by
      rw [htext, String.ofList_toList]
      exact parse_payload project user hr he
    have hle : time' * 1000 ≤ expiry ↔ time' ≤ time + life := by
      rw [hexpiry]
      omega
    rw [if_pos rfl]
    refine ⟨by simp, fun token htoken project' revision' => ?_⟩
    rw [← Except.ok.inj htoken, verify_tokenOf hs hparse, judge_payload (millis?_of_shows hnow')]
    simp only [hle]

/-- Up to its last second a token is good for what it was issued for, and then no more; it is not good
for another revision. -/
theorem verify_issued_ofSecret :
    let s := ofSecret "secret" (.int 300)
    ∃ token, s.issue (.real (.ofInt 1700000000)) "shop" 2 "alice" = .ok token ∧
      s.verify (.real (.ofInt 1700000300)) token "shop" 2 = .granted (.str "alice") ∧
      s.verify (.real (.ofInt 1700000301)) token "shop" 2 = .refused ∧
      s.verify (.real (.ofInt 1700000000)) token "shop" 3 = .refused := by
  intro s
  have hlife : s.life = .int 300 := rfl
  have hissued : ∀ time : Int, |time * 1000| < 2 ^ 53 → _ := fun time htime =>
    verify_issued (signsInHex_ofSecret "secret" (.int 300)) hlife
      (shows_ofInt (show |(1700000000 : Int) * 1000| < 2 ^ 53 by norm_num)) (shows_ofInt htime)
      (.inr (by norm_num)) "shop" "alice" 2
  obtain ⟨token, htoken⟩ := (hissued 1700000300 (by norm_num)).1.2 ⟨by decide, by decide⟩
  refine ⟨token, htoken, ?_, ?_, ?_⟩
  · rw [(hissued 1700000300 (by norm_num)).2 token htoken]
    exact if_pos ⟨rfl, rfl, by norm_num⟩
  · rw [(hissued 1700000301 (by norm_num)).2 token htoken]
    exact if_neg fun h => absurd h.2.2 (by norm_num)
  · rw [(hissued 1700000000 (by norm_num)).2 token htoken]
    exact if_neg fun h => absurd h.2.1 (by norm_num)

end TokenSigner

end VersionedSite
