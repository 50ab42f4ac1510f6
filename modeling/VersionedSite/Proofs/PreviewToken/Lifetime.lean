import VersionedSite.Proofs.Clock
import VersionedSite.Proofs.PreviewToken

/-!
# How long a token lasts

A token that was issued at a whole second is good for as many whole seconds as it was to last, however
many these are (`verify_in_time`). The time at which it is up is reckoned with exactly, unless it is far
beyond all dates; then it is up beyond all dates.

* `issue_eq_ok`: what a token that was issued is.
* `forall_mem_issue`: the characters that it is written in.
* `le_expiry`: the time at which it is up.
-/

namespace VersionedSite

open Text

namespace TokenSigner

variable {s : TokenSigner} {now now' time time' life expiry : Int} {project user token : String}
  {revision : Int}

/-! ## What is issued -/

theorem issue_eq_ok {seconds : Number} :
    s.issue seconds project revision user = .ok token ↔
      ∃ expiry, millis? (seconds.add s.life) = some expiry ∧
        isWritable revision = true ∧ isWritable expiry = true ∧
        token = String.ofList
          (s.tokenOf ((payload project revision user expiry).render Json.compact).toList) := by
  unfold issue
  cases millis? (seconds.add s.life) with
  | none => simp
  | some expiry =>
    dsimp only
    split
    · rename_i hw
      obtain ⟨hr, he⟩ := Bool.and_eq_true_iff.1 hw
      constructor
      · exact fun h => ⟨expiry, rfl, hr, he, (Except.ok.inj h).symm⟩
      · rintro ⟨_, ⟨⟩, -, -, rfl⟩
        rfl
    · rename_i hw
      constructor
      · exact nofun
      · rintro ⟨_, ⟨⟩, hr, he, -⟩
        exact absurd (Bool.and_eq_true_iff.2 ⟨hr, he⟩) hw

/-- Tokens are written in letters, digits, `-`, `_` and `.`. -/
theorem forall_mem_issue {P : Char → Prop} (hs : s.SignsInHex) (hdigit : ∀ n < 64, P (Base64.digit n))
    (hdot : P '.') (hhex : ∀ c, IsHexDigit c → P c) {seconds : Number}
    (h : s.issue seconds project revision user = .ok token) : ∀ c ∈ token.toList, P c := by
  obtain ⟨expiry, -, -, -, rfl⟩ := issue_eq_ok.1 h
  intro c hc
  rw [String.toList_ofList, tokenOf, List.mem_append, List.mem_cons] at hc
  rcases hc with hc | rfl | hc
  · exact Base64.forall_mem_encode hdigit _ c hc
  · exact hdot
  · exact hhex c (hs _ c hc)

theorem ne_empty_of_issue {seconds : Number} (h : s.issue seconds project revision user = .ok token) :
    token ≠ "" := by
  obtain ⟨expiry, -, -, -, rfl⟩ := issue_eq_ok.1 h
  intro he
  have hlist := congrArg String.toList he
  rw [String.toList_ofList] at hlist
  exact List.append_ne_nil_of_right_ne_nil _ (List.cons_ne_nil _ _) hlist

/-- A token that was issued is good for what it was issued for, until its time is up. -/
theorem verify_of_issue (hs : s.SignsInHex) {seconds seconds' : Number}
    (h : s.issue seconds project revision user = .ok token)
    (hnow : millis? seconds' = some now')
    (hlasts : ∀ expiry, millis? (seconds.add s.life) = some expiry → now' ≤ expiry) :
    s.verify seconds' token project revision = .granted (.str user) := by
  obtain ⟨expiry, hexpiry, hr, he, rfl⟩ := issue_eq_ok.1 h
  have hparse := parse_payload project user hr he
  rw [← String.ofList_toList (s := (payload project revision user expiry).render Json.compact)] at hparse
  rw [verify_tokenOf hs hparse, judge_payload hnow]
  exact if_pos ⟨rfl, rfl, hlasts expiry hexpiry⟩

/-! ## When it is up -/

theorem shows_clockSeconds (hnow : now = 1000 * time) (hdate : isDatable now = true) :
    Shows (clockSeconds now) time := by
  unfold isDatable at hdate
  rw [Bool.and_eq_true, decide_eq_true_eq, decide_eq_true_eq] at hdate
  have hshort : |time| < 2 ^ 53 := by
    rw [abs_lt]
    omega
  have hmillis : |time * 1000| < 2 ^ 53 := by
    rw [abs_lt]
    omega
  exact .inr ⟨_, rfl, Binary.value?_ofSigned false hshort (by decide) (by omega), hmillis⟩

/-- What a large number of seconds comes to in milliseconds is large, if it comes to anything. -/
theorem le_millis {x : Binary} {q : ℚ} (hx : x.Rounds q) (hq : 2 ^ 42 ≤ q)
    (h : millis? (.real x) = some expiry) : 2 ^ 48 ≤ expiry := by
  have hmillis : (x.mul (.ofInt 1000)).truncate? = some expiry := h
  have hpos : (0 : ℚ) ≤ q := by linarith
  obtain rfl | ⟨p, hp, hpe⟩ := hx.exists_rough
  · rw [decide_eq_false (not_lt.2 hpos)] at hmillis
    cases hmillis
  · rw [abs_of_nonneg hpos, abs_le] at hpe
    have hproduct := Binary.rounds_mul hp (Binary.value?_ofInt (n := 1000) (by norm_num))
    obtain he | ⟨v, hv, hve⟩ := hproduct.exists_rough
    · rw [he] at hmillis
      cases hmillis
    · have hlow : (0 : ℚ) ≤ p * (1000 : Int) := by
        push_cast
        linarith
      rw [abs_of_nonneg hlow, abs_le] at hve
      push_cast at hve
      have hlt := Binary.lt_truncate?_add_one hv (by linarith) hmillis
      have hle : ((2 ^ 48 : Int) : ℚ) ≤ expiry := by
        push_cast
        linarith
      exact_mod_cast hle

/-- The time at which a token is up is not before the last date on which it is good. -/
theorem le_expiry (hnow : now = 1000 * time) (hnow' : now' = 1000 * time')
    (hdate : isDatable now = true) (hdate' : isDatable now' = true) (hlife : s.life = .int life)
    (hle : time' ≤ time + life) (h : millis? ((clockSeconds now).add s.life) = some expiry) :
    now' ≤ expiry := by
  have hshows := shows_clockSeconds hnow hdate
  rw [hlife] at h
  unfold isDatable at hdate hdate'
  rw [Bool.and_eq_true, decide_eq_true_eq, decide_eq_true_eq] at hdate hdate'
  by_cases hexact : |(time + life) * 1000| < 2 ^ 53
  · rw [millis?_of_shows (shows_add hshows (.inr hexact))] at h
    rw [← Option.some.inj h]
    omega
  · -- The time is so far beyond all dates that roundings do not matter.
    have hlarge : 8 * 10 ^ 12 ≤ life := by
      rw [abs_lt, not_and] at hexact
      omega
    have hlargeq : (8 * 10 ^ 12 : ℚ) ≤ life := by exact_mod_cast hlarge
    have htime : (-10 ^ 11 : ℚ) ≤ time := by
      have hbound : -10 ^ 11 ≤ time := by omega
      exact_mod_cast hbound
    obtain hint | ⟨x, hx, hvalue, -⟩ := hshows
    · cases hint
    rw [hx] at h
    have hbeyond : 2 ^ 48 ≤ expiry := by
      obtain he | ⟨l, hl, hle⟩ := (Binary.rounds_ofInt life).exists_rough
      · rw [decide_eq_false (not_lt.2 (by linarith))] at he
        have hsum : (Number.real x).add (.int life) = .real (.infinite false) := by
          show Number.real (x.add (.ofInt life)) = _
          rw [he, Binary.add_infinite hvalue]
        rw [hsum] at h
        cases h
      · have hpos : (0 : ℚ) ≤ life := by linarith
        rw [abs_of_nonneg hpos, abs_le] at hle
        exact le_millis (Binary.rounds_add hvalue hl) (by linarith) h
    omega

/-- A token that was issued at a whole second is good for what it was issued for, at every whole second
until as many have passed as it was to last. -/
theorem verify_in_time (hs : s.SignsInHex) (hlife : s.life = .int life) (hnow : now = 1000 * time)
    (hnow' : now' = 1000 * time') (hdate : isDatable now = true) (hdate' : isDatable now' = true)
    (hle : time' ≤ time + life) (h : s.issue (clockSeconds now) project revision user = .ok token) :
    s.verify (clockSeconds now') token project revision = .granted (.str user) := by
  have hmillis : millis? (clockSeconds now') = some now' := by
    rw [millis?_of_shows (shows_clockSeconds hnow' hdate'), hnow', Int.mul_comm]
  exact verify_of_issue hs h hmillis fun expiry => le_expiry hnow hnow' hdate hdate' hlife hle

end TokenSigner

end VersionedSite
