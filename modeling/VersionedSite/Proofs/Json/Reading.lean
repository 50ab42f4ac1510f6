import Mathlib.Data.List.Basic
import VersionedSite.Json.Reader

/-!
# Reading back what was written

A value that is written with nothing between its parts is read back where it stands, whatever follows
that does not go on with it (`ReadsBack`).

* `string_quoteChars`: so is any text of characters, its escapes and pairs of halves included.
* `number_toString`: so is a whole number, unless it has more digits than are read.
* `parse_render_obj`: so is an object of such values.
-/

namespace VersionedSite

theorem Text.hexValue?_hexDigit : ∀ n < 16, Text.hexValue? (Text.hexDigit n) = some n := by decide

namespace Json

open Text

/-! ## Texts -/

theorem unit?_hex {n : Nat} (h : n < 0x10000) (rest : List Char) :
    unit? (hex 4 n ++ rest) = some (n, rest) := by
  have hdigit : ∀ m, hexValue? (hexDigit (m % 16)) = some (m % 16) :=
    fun m => hexValue?_hexDigit _ (Nat.mod_lt _ (by decide))
  have hvalue :
      ((n / 16 / 16 / 16 % 16 * 16 + n / 16 / 16 % 16) * 16 + n / 16 % 16) * 16 + n % 16 = n := by
    omega
  simp only [hex, List.nil_append, List.cons_append, unit?, hdigit]
  simp [hvalue]

/-- A number in an escape that does not begin a pair is read as it is. -/
theorem numericEscape_hex {n : Nat} (h : n < 0x10000) (hn : ¬ (0xd800 ≤ n ∧ n ≤ 0xdbff))
    {rest : List Char} (hr : rest ≠ []) : numericEscape ('u' :: (hex 4 n ++ rest)) = .ok (n, rest) := by
  unfold numericEscape
  rw [List.drop_one, List.tail_cons, unit?_hex h]
  cases rest with
  | nil => exact absurd rfl hr
  | cons c more =>
    dsimp only
    split
    · rename_i he
      simp [hn]
    · rfl

/-- Two halves that follow each other are read as one character. -/
theorem numericEscape_pair {n : Nat} (h : n < 0x100000) {rest : List Char} (hr : rest ≠ []) :
    numericEscape ('u' :: (hex 4 (0xd800 + n / 0x400) ++ (unitEscape (0xdc00 + n % 0x400) ++ rest))) =
      .ok (0x10000 + n, rest) := by
  have hpos := List.length_pos_of_ne_nil hr
  have hlength : (hex 4 (0xdc00 + n % 0x400) ++ rest).length = 4 + rest.length := by
    rw [List.length_append, hex_length]
  unfold numericEscape unitEscape
  rw [List.drop_one, List.tail_cons, unit?_hex (by omega)]
  simp only [List.cons_append, unit?_hex (show 0xdc00 + n % 0x400 < 0x10000 by omega)]
  rw [if_pos (by simp only [Bool.and_eq_true, decide_eq_true_eq]; omega),
    if_pos (by simp only [Bool.and_eq_true, decide_eq_true_eq]; omega)]
  have hvalue : 0x10000 + (0xd800 + n / 0x400 - 0xd800) * 0x400 + (0xdc00 + n % 0x400 - 0xdc00) =
      0x10000 + n := by omega
  rw [hvalue]

variable {opened rest : List Char}

theorem stringBody_escape (fuel : Nat) (done : Points) {e c : Char} (he : e ≠ 'u')
    (h : simpleEscape? e = some c) :
    stringBody opened (fuel + 1) done ('\\' :: e :: rest) =
      stringBody opened fuel (c.toNat :: done) rest := by
  rw [stringBody]
  · rw [h]
  · exact he

theorem stringBody_plain (fuel : Nat) (done : Points) {c : Char} (hq : c ≠ '"') (hb : c ≠ '\\')
    (hc : 0x20 ≤ c.toNat) :
    stringBody opened (fuel + 1) done (c :: rest) = stringBody opened fuel (c.toNat :: done) rest := by
  rw [stringBody]
  · rw [if_neg (Nat.not_lt.2 hc)]
  · exact hq
  · exact hb

theorem stringBody_numeric (fuel : Nat) (done : Points) {n : Nat} {s : List Char}
    (h : numericEscape ('u' :: s) = .ok (n, rest)) :
    stringBody opened (fuel + 1) done ('\\' :: 'u' :: s) = stringBody opened fuel (n :: done) rest := by
  rw [stringBody, h]

/-- Each character is read back in one step. -/
theorem stringBody_quoteChar (fuel : Nat) (done : Points) (c : Char) (hr : rest ≠ []) :
    stringBody opened (fuel + 1) done (quoteChar c ++ rest) =
      stringBody opened fuel (c.toNat :: done) rest := by
  have hvalid : c.toNat < 0xd800 ∨ 0xdfff < c.toNat ∧ c.toNat < 0x110000 := c.valid
  unfold quoteChar
  simp only [beq_iff_eq]
  split_ifs with hquote hbackslash hfeed hreturn htab hback hform hplain hbasic
  · rw [hquote]
    exact stringBody_escape fuel done (by decide) rfl
  · rw [hbackslash]
    exact stringBody_escape fuel done (by decide) rfl
  · rw [hfeed]
    exact stringBody_escape fuel done (by decide) rfl
  · rw [hreturn]
    exact stringBody_escape fuel done (by decide) rfl
  · rw [htab]
    exact stringBody_escape fuel done (by decide) rfl
  · rw [hback]
    exact stringBody_escape fuel done (by decide) rfl
  · rw [hform]
    exact stringBody_escape fuel done (by decide) rfl
  · exact stringBody_plain fuel done hquote hbackslash hplain.1
  · exact stringBody_numeric fuel done (numericEscape_hex hbasic (by omega) hr)
  · have hlt : c.toNat - 0x10000 < 0x100000 := by omega
    have hback : 0x10000 + (c.toNat - 0x10000) = c.toNat := by omega
    have hpair := numericEscape_pair hlt hr
    rw [hback] at hpair
    rw [List.append_assoc]
    exact stringBody_numeric fuel done hpair

theorem quoteChar_ne_nil (c : Char) : quoteChar c ≠ [] := by
  unfold quoteChar
  split_ifs <;> simp [unitEscape]

theorem stringBody_quoteChars {fuel : Nat} {s : List Char} (hfuel : s.length < fuel) (done : Points) :
    stringBody opened fuel done (s.flatMap quoteChar ++ '"' :: rest) =
      .ok (done.reverse ++ Points.ofChars s, rest) := by
  induction s generalizing fuel done with
  | nil =>
    obtain ⟨fuel, rfl⟩ := Nat.exists_eq_succ_of_ne_zero (Nat.ne_of_gt hfuel)
    simp [stringBody, Points.ofChars]
  | cons c s ih =>
    obtain ⟨fuel, rfl⟩ := Nat.exists_eq_succ_of_ne_zero (Nat.ne_of_gt (Nat.zero_lt_of_lt hfuel))
    rw [List.length_cons] at hfuel
    rw [List.flatMap_cons, List.append_assoc, stringBody_quoteChar _ _ _ (by simp),
      ih (Nat.lt_of_succ_lt_succ hfuel)]
    simp [Points.ofChars]

theorem length_le_flatMap_quoteChar (s : List Char) : s.length ≤ (s.flatMap quoteChar).length := by
  induction s with
  | nil => exact Nat.le_refl 0
  | cons c s ih =>
    have hpos := List.length_pos_of_ne_nil (quoteChar_ne_nil c)
    rw [List.flatMap_cons, List.length_append, List.length_cons]
    omega

/-- A text in quotes is read back as its characters. -/
theorem string_quoteChars (s rest : List Char) :
    string (quoteChars s ++ rest) = .ok (Points.ofChars s, rest) := by
  have hle := length_le_flatMap_quoteChar s
  have hbody : (quoteChars s ++ rest).drop 1 = s.flatMap quoteChar ++ '"' :: rest := by
    simp [quoteChars]
  rw [string, hbody, stringBody_quoteChars]
  · rfl
  · simp only [quoteChars, List.cons_append, List.length_cons, List.length_append]
    omega

/-! ## Numbers -/

/-- Whether a text goes on with nothing that belongs to a whole number before it. -/
def EndsNumber (rest : List Char) : Prop :=
  ∀ c ∈ rest.head?, c.isDigit = false ∧ c ≠ '.' ∧ c ≠ 'e' ∧ c ≠ 'E'

variable {d : Dialect}

theorem digitsValue_toDigits (n : Nat) : digitsValue (Nat.toDigits 10 n) = n := by
  have hfold : digitsValue (Nat.toDigits 10 n) = Nat.ofDigitChars 10 (Nat.toDigits 10 n) 0 := by
    simp only [digitsValue, Nat.ofDigitChars, Nat.mul_comm]
  rw [hfold, Nat.ofDigitChars_toDigits (by decide) (by decide)]

theorem isDigit_of_mem_toDigits {n : Nat} {c : Char} (h : c ∈ Nat.toDigits 10 n) : c.isDigit = true :=
  Nat.isDigit_of_mem_toDigits (by decide) (by decide) h

theorem exists_toDigits (n : Nat) :
    ∃ c more, Nat.toDigits 10 n = c :: more ∧ c.isDigit = true := by
  obtain ⟨c, more, he⟩ := List.exists_cons_of_ne_nil (Nat.toDigits_ne_nil (b := 10) (n := n))
  exact ⟨c, more, he, isDigit_of_mem_toDigits (he ▸ List.mem_cons_self)⟩

/-- Only zero is written with a zero at its begin. -/
theorem head?_toDigits {n : Nat} (hn : 0 < n) : (Nat.toDigits 10 n).head? ≠ some '0' := by
  induction n using Nat.strongRecOn with
  | ind n ih =>
    rw [Nat.toDigits_eq_if (by decide)]
    split
    · rename_i hlt
      have hall : ∀ m < 10, 0 < m → m.digitChar ≠ '0' := by decide
      simpa using hall n hlt hn
    · rename_i hge
      have hpos : 0 < n / 10 := by omega
      rw [List.head?_append_of_ne_nil _ Nat.toDigits_ne_nil]
      exact ih (n / 10) (by omega) hpos

theorem wholePart?_toDigits (n : Nat) (hr : EndsNumber rest) :
    wholePart? (Nat.toDigits 10 n ++ rest) = some (Nat.toDigits 10 n, rest) := by
  have htake : rest.takeWhile Char.isDigit = [] ∧ rest.dropWhile Char.isDigit = rest := by
    cases rest with
    | nil => exact ⟨rfl, rfl⟩
    | cons c more =>
      have hc : c.isDigit = false := (hr c rfl).1
      simp [hc]
  obtain rfl | hn := Nat.eq_zero_or_pos n
  · rfl
  · obtain ⟨c, more, he, hc⟩ := exists_toDigits n
    have hmore : ∀ e ∈ more, e.isDigit = true :=
      fun e hm => isDigit_of_mem_toDigits (he ▸ List.mem_cons_of_mem _ hm)
    have hzero := head?_toDigits hn
    rw [he] at hzero ⊢
    rw [List.cons_append, wholePart?, if_neg (by simpa using hzero), if_pos hc,
      List.takeWhile_append_of_pos hmore, List.dropWhile_append_of_pos hmore, htake.1, htake.2,
      List.append_nil]

theorem fraction_of_endsNumber (hr : EndsNumber rest) : fraction rest = ([], rest) := by
  unfold fraction
  split
  · exact absurd rfl (hr '.' rfl).2.1
  · rfl

theorem exponent?_of_endsNumber (hr : EndsNumber rest) : exponent? rest = none := by
  cases rest with
  | nil => rfl
  | cons c more =>
    obtain ⟨-, -, he, hE⟩ := hr c rfl
    simp [exponent?, he, hE]

/-- Whether a reading admits as many digits as a whole number has. -/
def Dialect.Admits (d : Dialect) (n : Int) : Prop :=
  d.digits.any ((Nat.toDigits 10 n.natAbs).length > ·) = false

/-- The digits behind a sign, or without one, are read as a whole number. -/
theorem number_of_digits {n : Nat} (hd : d.Admits n) (hr : EndsNumber rest) {s : List Char}
    {negative : Bool}
    (hs : afterMinus s = (negative, Nat.toDigits 10 n ++ rest)) :
    number d s = .ok (.int (if negative then -n else n), rest) := by
  have hlength : d.digits.any ((Nat.toDigits 10 n).length > ·) = false := hd
  unfold number
  rw [hs]
  dsimp only
  rw [wholePart?_toDigits n hr]
  dsimp only
  rw [fraction_of_endsNumber hr]
  dsimp only
  rw [exponent?_of_endsNumber hr]
  simp [hlength, digitsValue_toDigits]

theorem number_toDigits {n : Nat} (hd : d.Admits n) (hr : EndsNumber rest) :
    number d (Nat.toDigits 10 n ++ rest) = .ok (.int n, rest) := by
  obtain ⟨c, more, he, hc⟩ := exists_toDigits n
  have hsign : c ≠ '-' := by
    rintro rfl
    cases hc
  have hplain : afterMinus (Nat.toDigits 10 n ++ rest) = (false, Nat.toDigits 10 n ++ rest) := by
    rw [he, List.cons_append, afterMinus]
    exact fun t ht => hsign (List.cons.inj ht).1
  exact number_of_digits hd hr hplain

theorem number_negative {n : Nat} (hd : d.Admits n) (hr : EndsNumber rest) :
    number d ('-' :: (Nat.toDigits 10 n ++ rest)) = .ok (.int (-n), rest) := by
  have hsign : afterMinus ('-' :: (Nat.toDigits 10 n ++ rest)) = (true, Nat.toDigits 10 n ++ rest) := rfl
  exact number_of_digits hd hr hsign

/-- A whole number is written in digits, behind a minus sign or without one. -/
theorem toString_cases (n : Int) :
    n = n.natAbs ∧ (toString n).toList = Nat.toDigits 10 n.natAbs ∨
      n = -n.natAbs ∧ (toString n).toList = '-' :: Nat.toDigits 10 n.natAbs := by
  cases n with
  | ofNat m => exact .inl ⟨rfl, Nat.toList_repr⟩
  | negSucc m =>
    refine .inr ⟨rfl, ?_⟩
    show ("-" ++ (m + 1).repr).toList = _
    rw [String.toList_append, Nat.toList_repr]
    rfl

theorem isDigit_of_mem_toString {n : Int} {c : Char} (h : c ∈ (toString n).toList) :
    c.isDigit = true ∨ c = '-' := by
  obtain ⟨-, he⟩ | ⟨-, he⟩ := toString_cases n <;> rw [he] at h
  · exact .inl (isDigit_of_mem_toDigits h)
  · exact (List.mem_cons.1 h).symm.imp_left isDigit_of_mem_toDigits

/-- A whole number is read back, if it is not too long. -/
theorem number_toString {n : Int} (hd : d.Admits n) (hr : EndsNumber rest) :
    number d ((toString n).toList ++ rest) = .ok (.int n, rest) := by
  have habs : d.Admits n.natAbs := hd
  rcases toString_cases n with ⟨hn, he⟩ | ⟨hn, he⟩
  · rw [he, number_toDigits habs hr, ← hn]
  · rw [he, List.cons_append, number_negative habs hr, ← hn]

/-! ## Values -/

/-- A value that is read back wherever it is written, if what follows does not go on with it. -/
def ReadsBack (d : Dialect) (v : Json) : Prop :=
  ∀ fuel room rest, EndsNumber rest →
    value d (fuel + 1) room (skipGaps ((v.render compact).toList ++ rest)) = .ok (v, rest)

theorem skipGaps_cons {c : Char} (hc : isGap c = false) (s : List Char) : skipGaps (c :: s) = c :: s := by
  simp [skipGaps, hc]

theorem readsBack_str (s : String) : ReadsBack d (.str s) := by
  intro fuel room rest _
  have htext : ((Json.str s).render compact).toList = quoteChars s.toList := by
    rw [render, String.toList_ofList]
  have hstring := string_quoteChars s.toList rest
  rw [htext, quoteChars, List.cons_append, skipGaps_cons (by decide), value, ← List.cons_append,
    ← quoteChars, hstring]
  simp [Except.map, ofPoints_ofChars]

theorem word?_eq_none_of_isDigit (beyond : Bool) {c : Char} (hc : c.isDigit = true) (s : List Char) :
    word? beyond (c :: s) = none ∧ word? beyond ('-' :: c :: s) = none := by
  have hne : ∀ e : Char, e.isDigit = false → (e == c) = false := by
    intro e he
    rw [beq_eq_false_iff_ne]
    rintro rfl
    cases hc.symm.trans he
  constructor <;>
    cases beyond <;>
      simp [word?, words, afterWord?, hne 'n' (by decide), hne 't' (by decide), hne 'f' (by decide),
        hne 'N' (by decide), hne 'I' (by decide), hne '-' (by decide)]

theorem value_number {c : Char} {s : List Char} (hquote : c ≠ '"') (hbrace : c ≠ '\x7b')
    (hbracket : c ≠ '[') (hw : word? d.beyond (c :: s) = none) (fuel room : Nat) :
    value d (fuel + 1) room (c :: s) = (number d (c :: s)).map fun x => (.num x.1, x.2) := by
  rw [value]
  · rw [hw]
  all_goals simp [hquote, hbrace, hbracket]

theorem readsBack_int {n : Int} (hd : d.Admits n) : ReadsBack d (.int n) := by
  intro fuel room rest hr
  have htext : ((Json.int n).render compact).toList = (toString n).toList := by
    rw [int, render]
    rfl
  have hnumber := number_toString hd hr
  -- Neither a digit nor the sign begins a value of another kind.
  have hshape : ∃ c s, (toString n).toList ++ rest = c :: s ∧ isGap c = false ∧ c ≠ '"' ∧ c ≠ '\x7b' ∧
      c ≠ '[' ∧ word? d.beyond (c :: s) = none := by
    obtain ⟨c, more, htoDigits, hc⟩ := exists_toDigits n.natAbs
    obtain ⟨hword, hword'⟩ := word?_eq_none_of_isDigit d.beyond hc (more ++ rest)
    have hgap : isGap c = false := by
      rw [Bool.eq_false_iff]
      intro hgap
      simp only [isGap, Bool.or_eq_true, beq_iff_eq] at hgap
      rcases hgap with ((rfl | rfl) | rfl) | rfl <;> cases hc
    rcases toString_cases n with ⟨-, he⟩ | ⟨-, he⟩ <;> rw [he, htoDigits]
    · refine ⟨c, more ++ rest, rfl, hgap, ?_, ?_, ?_, hword⟩ <;>
        (rintro rfl; cases hc)
    · exact ⟨'-', _, rfl, by decide, by decide, by decide, by decide, hword'⟩
  obtain ⟨c, s, he, hgap, hquote, hbrace, hbracket, hword⟩ := hshape
  rw [htext, he, skipGaps_cons hgap, value_number hquote hbrace hbracket hword, ← he, hnumber]
  rfl

/-! ## Objects -/

/-- The text of a member, with nothing between its parts. -/
def memberText (m : String × Json) : List Char :=
  quoteChars m.1.toList ++ ':' :: (m.2.render compact).toList

theorem toList_render_obj (ms : List (String × Json)) :
    ((Json.obj ms).render compact).toList =
      '\x7b' :: (List.intercalate [','] (ms.map memberText) ++ ['\x7d']) := by
  have hmembers : (renderMembers compact ms).map String.toList = ms.map memberText := by
    induction ms with
    | nil => rfl
    | cons m ms ih =>
      rw [renderMembers, List.map_cons, List.map_cons, ih]
      simp [memberText, compact]
  rw [render, String.toList_append, String.toList_append, String.toList_intercalate, hmembers]
  rfl

theorem insertMember_of_not_mem {key : String} {v : Json} {ms : List (String × Json)}
    (h : key ∉ ms.map Prod.fst) : insertMember key v ms = ms ++ [(key, v)] := by
  induction ms with
  | nil => rfl
  | cons m ms ih =>
    rw [List.map_cons, List.mem_cons, not_or] at h
    rw [insertMember, if_neg (Ne.symm h.1), ih h.2, List.cons_append]

theorem addMember_ofChars {key : String} {v : Json} {ms : List (String × Json)}
    (h : key ∉ ms.map Prod.fst) :
    addMember (Points.ofChars key.toList) v ms = ms ++ [(key, v)] := by
  rw [addMember, Points.replaced_ofChars, Points.hasHalf_ofChars, String.ofList_toList,
    if_neg Bool.false_ne_true, insertMember_of_not_mem h]

theorem not_mem_of_nodup_append {done ms : List (String × Json)} {m : String × Json}
    (h : ((done ++ m :: ms).map Prod.fst).Nodup) : m.1 ∉ done.map Prod.fst := by
  rw [List.map_append, List.map_cons, List.nodup_append] at h
  exact fun hin => h.2.2 _ hin _ List.mem_cons_self rfl

/-- How an object whose members so far were read goes on. -/
def membersAfter (d : Dialect) (fuel room : Nat) (done : List (String × Json)) (rest : List Char) :
    Reading Json :=
  match skipGaps rest with
  | '\x7d' :: rest => .ok (.obj done, rest)
  | ',' :: rest => members d fuel room done (skipGaps rest)
  | rest => .error (.malformed rest)

/-- One member is read back, and the object goes on behind it. -/
theorem members_memberText (fuel room : Nat) {done : List (String × Json)} {m : String × Json}
    (hv : ReadsBack d m.2) (hm : m.1 ∉ done.map Prod.fst) {rest : List Char} (hr : EndsNumber rest) :
    members d (fuel + 2) room done (memberText m ++ rest) =
      membersAfter d (fuel + 1) room (done ++ [m]) rest := by
  obtain ⟨key, v⟩ := m
  have hname := string_quoteChars key.toList (':' :: ((v.render compact).toList ++ rest))
  have hvalue := hv fuel room rest hr
  have hquote : memberText (key, v) ++ rest =
      '"' :: ((key.toList.flatMap quoteChar ++ ['"']) ++ ':' :: ((v.render compact).toList ++ rest)) := by
    simp [memberText, quoteChars]
  rw [hquote, members, ← List.cons_append, ← quoteChars, hname]
  simp only [skipGaps_cons (show isGap ':' = false by decide), hvalue, addMember_ofChars hm]
  rfl

theorem endsNumber_brace (rest : List Char) : EndsNumber ('\x7d' :: rest) := by
  simp only [EndsNumber, List.head?_cons, Option.mem_some_iff, forall_eq']
  decide

theorem endsNumber_comma (rest : List Char) : EndsNumber (',' :: rest) := by
  simp only [EndsNumber, List.head?_cons, Option.mem_some_iff, forall_eq']
  decide

theorem skipGaps_memberText (m : String × Json) (rest : List Char) :
    skipGaps (memberText m ++ rest) = memberText m ++ rest := by
  simp only [memberText, quoteChars, List.cons_append]
  exact skipGaps_cons (by decide) _

theorem intercalate_memberText (m : String × Json) (ms : List (String × Json)) :
    List.intercalate [','] ((m :: ms).map memberText) =
      memberText m ++ ms.flatMap fun m => ',' :: memberText m := by
  induction ms generalizing m with
  | nil => simp
  | cons m' ms ih =>
    rw [List.map_cons, List.map_cons, List.intercalate_cons_cons, ← List.map_cons, ih m',
      List.append_assoc]
    rfl

/-- The members of an object are read back, if no name comes twice. -/
theorem members_intercalate (room : Nat) {fuel : Nat} {done ms : List (String × Json)} {m : String × Json}
    (hv : ∀ e ∈ m :: ms, ReadsBack d e.2) (hnodup : ((done ++ m :: ms).map Prod.fst).Nodup)
    (hfuel : ms.length < fuel) (rest : List Char) :
    members d (fuel + 1) room done (List.intercalate [','] ((m :: ms).map memberText) ++ '\x7d' :: rest) =
      .ok (.obj (done ++ m :: ms), rest) := by
  rw [intercalate_memberText]
  induction ms generalizing fuel done m with
  | nil =>
    obtain ⟨fuel, rfl⟩ := Nat.exists_eq_succ_of_ne_zero (Nat.ne_of_gt hfuel)
    have hnew : m.1 ∉ done.map Prod.fst := not_mem_of_nodup_append hnodup
    have hlast := members_memberText fuel room (hv m List.mem_cons_self) hnew (endsNumber_brace rest)
    rw [membersAfter, skipGaps_cons (by decide)] at hlast
    rw [List.flatMap_nil, List.append_nil]
    exact hlast
  | cons m' ms ih =>
    obtain ⟨fuel, rfl⟩ := Nat.exists_eq_succ_of_ne_zero (Nat.ne_of_gt (Nat.zero_lt_of_lt hfuel))
    have hnew : m.1 ∉ done.map Prod.fst := not_mem_of_nodup_append hnodup
    have hrest := ih (fun e he => hv e (List.mem_cons_of_mem _ he))
      (show ((done ++ [m] ++ m' :: ms).map Prod.fst).Nodup by simpa using hnodup)
      (Nat.lt_of_succ_lt_succ hfuel)
    rw [List.append_assoc] at hrest
    have hstep := members_memberText fuel room (hv m List.mem_cons_self) hnew (endsNumber_comma
      (memberText m' ++ (ms.flatMap (fun e => ',' :: memberText e) ++ '\x7d' :: rest)))
    rw [membersAfter, skipGaps_cons (by decide)] at hstep
    have hnext := hstep.trans
      (congrArg (members d (fuel + 1) room (done ++ [m])) (skipGaps_memberText m' _))
    rw [List.flatMap_cons, List.append_assoc, List.append_assoc, List.cons_append]
    exact hnext.trans (hrest.trans (by simp))

theorem value_obj (room : Nat) {fuel : Nat} {ms : List (String × Json)} {m : String × Json}
    (hv : ∀ e ∈ m :: ms, ReadsBack d e.2) (hnodup : ((m :: ms).map Prod.fst).Nodup)
    (hfuel : ms.length < fuel) (rest : List Char) :
    value d (fuel + 2) (room + 1)
        ('\x7b' :: (List.intercalate [','] ((m :: ms).map memberText) ++ '\x7d' :: rest)) =
      .ok (.obj (m :: ms), rest) := by
  have hmembers : members d (fuel + 1) room [] _ = .ok (.obj ([] ++ m :: ms), rest) :=
    members_intercalate room hv hnodup hfuel rest
  rw [intercalate_memberText, List.append_assoc] at hmembers ⊢
  rw [value, skipGaps_memberText]
  have hquote : ∀ tail, memberText m ++ tail =
      '"' :: (m.1.toList.flatMap quoteChar ++ '"' :: ':' :: ((m.2.render compact).toList ++ tail)) := by
    intro tail
    simp [memberText, quoteChars]
  rw [hquote] at hmembers ⊢
  exact hmembers

theorem length_le_flatMap_memberText (ms : List (String × Json)) :
    ms.length ≤ (ms.flatMap fun m => ',' :: memberText m).length := by
  induction ms with
  | nil => exact Nat.le_refl 0
  | cons m ms ih =>
    rw [List.flatMap_cons, List.length_append, List.length_cons, List.length_cons]
    omega

/-- An object of values that are read back is read back as a whole. -/
theorem parse_render_obj {ms : List (String × Json)} {m : String × Json}
    (hv : ∀ e ∈ m :: ms, ReadsBack d e.2) (hnodup : ((m :: ms).map Prod.fst).Nodup)
    (hdepth : d.depth ≠ some 0) :
    parse d ((Json.obj (m :: ms)).render compact) = .ok (.obj (m :: ms)) := by
  have htext := toList_render_obj (m :: ms)
  have hlength := congrArg List.length htext
  rw [intercalate_memberText, List.length_cons, List.length_append, List.length_append] at hlength
  have hle := length_le_flatMap_memberText ms
  obtain ⟨room, hroom⟩ :
      ∃ room, d.depth.getD ((Json.obj (m :: ms)).render compact).toList.length = room + 1 := by
    cases hd : d.depth with
    | none => exact ⟨_, hlength⟩
    | some n => exact Nat.exists_eq_succ_of_ne_zero fun hn => hdepth (hd.trans (congrArg some hn))
  have hvalue := value_obj room hv hnodup
    (show ms.length < 2 * ((Json.obj (m :: ms)).render compact).toList.length by omega) []
  have hbegin : ((Json.obj (m :: ms)).render compact).toList.head? = some '\x7b' := by rw [htext]; rfl
  have hopen : skipGaps ((Json.obj (m :: ms)).render compact).toList =
      ((Json.obj (m :: ms)).render compact).toList := by
    rw [htext]
    exact skipGaps_cons (by decide) _
  have hmark : ('\x7b' == '\ufeff') = false := by decide
  have hend : skipGaps [] = [] := rfl
  rw [← htext] at hvalue
  simp [parse, hbegin, hmark, hopen, hroom, hvalue, hend]

end Json

end VersionedSite
