import Suwappu.Lib.JsJson
import Suwappu.Lib.JsonRoundTrip

/-!
# JSON in JavaScript read back

`parse_stringify`: what is written is read back. `stringify_normalize_eq_iff`: with its keys in
order, a value has a text of its own.
-/

namespace JsJson

open Doubles JsonText

/-! ### Strings -/

variable {rest s : List Char} {n : ℕ}

lemma units_pair {u v : UInt16} (hu : isHigh u = true) (hv : isLow v = true) :
    units (0x10000 + (u.toNat - 0xD800) * 0x400 + (v.toNat - 0xDC00)) = [u, v] := by
  simp only [isHigh, isLow, Bool.and_eq_true, decide_eq_true_eq] at hu hv
  have hhigh : 0xD800 + (0x10000 + (u.toNat - 0xD800) * 0x400 + (v.toNat - 0xDC00) - 0x10000) /
      0x400 = u.toNat := by omega
  have hlow : 0xDC00 + (0x10000 + (u.toNat - 0xD800) * 0x400 + (v.toNat - 0xDC00) - 0x10000) %
      0x400 = v.toNat := by omega
  rw [units, if_neg (by omega), hhigh, hlow, UInt16.ofNat_toNat, UInt16.ofNat_toNat]

lemma units_toNat (u : UInt16) : units u.toNat = [u] := by
  rw [units, if_pos u.toNat_lt, UInt16.ofNat_toNat]

lemma flatMap_units_codePoints (us : JsString) : (codePoints us).flatMap units = us := by
  fun_induction codePoints us with
  | case1 => rfl
  | case2 u => rw [List.flatMap_cons, units_toNat, List.flatMap_nil]; rfl
  | case3 u v us h ih => rw [List.flatMap_cons, units_pair h.1 h.2, ih]; rfl
  | case4 u v us h ih => rw [List.flatMap_cons, units_toNat, ih]; rfl

lemma codePoints_lt (us : JsString) : ∀ n ∈ codePoints us, n < 0x110000 := by
  fun_induction codePoints us with
  | case1 =>
    intro n hn
    cases hn
  | case2 u =>
    intro n hn
    have hlt := u.toNat_lt
    rw [List.mem_singleton.mp hn]
    omega
  | case3 u v us h ih =>
    intro n hn
    obtain ⟨hu, hv⟩ := h
    simp only [isHigh, isLow, Bool.and_eq_true, decide_eq_true_eq] at hu hv
    rcases List.mem_cons.mp hn with hn | hn
    · omega
    · exact ih n hn
  | case4 u v us h ih =>
    intro n hn
    have hlt := u.toNat_lt
    rcases List.mem_cons.mp hn with rfl | hn
    · omega
    · exact ih n hn

lemma toNat_ofNat (hn : n < 0x110000) (hsurrogate : isSurrogate n = false) :
    (Char.ofNat n).toNat = n := by
  have hvalid : n.isValidChar := by
    simp only [isSurrogate, Bool.and_eq_false_iff, decide_eq_false_iff_not] at hsurrogate
    unfold Nat.isValidChar
    omega
  rw [Char.ofNat, dif_pos hvalid]
  rfl

lemma hexValue_hexDigit (h : n < 16) : hexValue (hexDigit n) = some n := by
  interval_cases n <;> rfl

lemma parseHex4_digits (h : n < 0x10000) :
    parseHex4 (hexDigit (n / 0x1000) :: hexDigit (n / 0x100 % 0x10) :: hexDigit (n / 0x10 % 0x10) ::
      hexDigit (n % 0x10) :: rest) = some (n, rest) := by
  have hvalue : ((n / 0x1000 * 16 + n / 0x100 % 0x10) * 16 + n / 0x10 % 0x10) * 16 + n % 0x10 =
      n := by
    omega
  rw [parseHex4, hexValue_hexDigit (by omega), hexValue_hexDigit (Nat.mod_lt _ (by decide)),
    hexValue_hexDigit (Nat.mod_lt _ (by decide)), hexValue_hexDigit (Nat.mod_lt _ (by decide))]
  simp only [Option.bind_eq_bind, Option.bind_some, hvalue]
  rfl

section Escapes

variable (fuel : ℕ) (s : List Char)

lemma bind_append (us : JsString) (x : Option (JsString × List Char)) :
    (do
      let read ← x
      return (us ++ read.1, read.2)) = x.map (Prod.map (us ++ ·) id) := by
  cases x <;> rfl

lemma parseUnits_backslash :
    parseUnits (fuel + 1) ('\\' :: s) = (do
      let read ← parseEscapeUnits s
      let more ← parseUnits fuel read.2
      return (read.1 ++ more.1, more.2)) :=
  rfl

lemma parseUnits_unicodeEscape (h : n < 0x10000) :
    parseUnits (fuel + 1) (unicodeEscape n ++ s) =
      (parseUnits fuel s).map (Prod.map (units n ++ ·) id) := by
  have hunits : units n = [UInt16.ofNat n] := if_pos h
  rw [unicodeEscape, List.cons_append, parseUnits_backslash, List.cons_append, parseEscapeUnits]
  simp only [List.cons_append, List.nil_append, parseHex4_digits h, Option.map_some, hunits]
  exact bind_append _ _

lemma escape_control {c : Char} (h : c.toNat < 0x20) :
    ['\\', 'u', '0', '0', hexDigit (c.toNat / 16), hexDigit (c.toNat % 16)] =
      unicodeEscape c.toNat := by
  have hzero : c.toNat / 0x1000 = 0 ∧ c.toNat / 0x100 % 0x10 = 0 := by omega
  have hhigh : c.toNat / 0x10 % 0x10 = c.toNat / 16 := by omega
  rw [unicodeEscape, hzero.1, hzero.2, hhigh]
  rfl

lemma parseUnits_escape (c : Char) :
    parseUnits (fuel + 1) (escape c ++ s) =
      (parseUnits fuel s).map (Prod.map (units c.toNat ++ ·) id) := by
  unfold escape
  split_ifs with h₁ h₂ h₃ h₄ h₅ h₆ h₇ h₈
  · subst h₁
    exact bind_append _ _
  · subst h₂
    exact bind_append _ _
  · subst h₃
    exact bind_append _ _
  · subst h₄
    exact bind_append _ _
  · subst h₅
    exact bind_append _ _
  · subst h₆
    exact bind_append _ _
  · subst h₇
    exact bind_append _ _
  · rw [escape_control h₈]
    exact parseUnits_unicodeEscape fuel s (by omega)
  · simp only [List.cons_append, List.nil_append, parseUnits, if_neg h₁, if_neg h₂, if_neg h₈]
    exact bind_append _ _

/-- One written code point is read back, whatever follows it. -/
lemma parseUnits_quotePoint (hn : n < 0x110000) :
    parseUnits (fuel + 1) (quotePoint n ++ s) =
      (parseUnits fuel s).map (Prod.map (units n ++ ·) id) := by
  unfold quotePoint
  split_ifs with hsurrogate
  · refine parseUnits_unicodeEscape fuel s ?_
    simp only [isSurrogate, Bool.and_eq_true, decide_eq_true_eq] at hsurrogate
    omega
  · have hchar := parseUnits_escape fuel s (Char.ofNat n)
    rwa [toNat_ofNat hn (Bool.eq_false_iff.mpr hsurrogate)] at hchar

end Escapes

lemma quotePoint_ne_nil (n : ℕ) : quotePoint n ≠ [] := by
  unfold quotePoint
  split_ifs
  · exact List.cons_ne_nil _ _
  · exact escape_ne_nil _

lemma length_le_flatMap_quotePoint (ns : List ℕ) : ns.length ≤ (ns.flatMap quotePoint).length := by
  induction ns with
  | nil => exact le_rfl
  | cons n ns ih =>
    have hpos := List.length_pos_of_ne_nil (quotePoint_ne_nil n)
    rw [List.flatMap_cons, List.length_append, List.length_cons]
    omega

lemma parseUnits_quote {ns : List ℕ} (hns : ∀ n ∈ ns, n < 0x110000) {fuel : ℕ}
    (hfuel : ns.length < fuel) :
    parseUnits fuel (ns.flatMap quotePoint ++ '"' :: rest) = some (ns.flatMap units, rest) := by
  induction ns generalizing fuel with
  | nil =>
    obtain ⟨fuel, rfl⟩ := Nat.exists_eq_succ_of_ne_zero (by omega : fuel ≠ 0)
    rfl
  | cons n ns ih =>
    rw [List.length_cons] at hfuel
    obtain ⟨fuel, rfl⟩ := Nat.exists_eq_succ_of_ne_zero (by omega : fuel ≠ 0)
    obtain ⟨hn, hns⟩ := List.forall_mem_cons.mp hns
    rw [List.flatMap_cons, List.append_assoc, parseUnits_quotePoint _ _ hn, ih hns (by omega)]
    rfl

lemma parseString_quote (us : JsString) :
    parseString ((codePoints us).flatMap quotePoint ++ '"' :: rest) = some (us, rest) := by
  have hle := length_le_flatMap_quotePoint (codePoints us)
  rw [parseString, parseUnits_quote (codePoints_lt us) (by rw [List.length_append]; omega),
    flatMap_units_codePoints]


/-! ### Numbers -/

/-- Digits as they may stand before the point of a number. -/
def IsInteger (ds : List Char) : Prop :=
  (∀ c ∈ ds, c.isDigit = true) ∧ ds ≠ [] ∧ (ds.head? = some '0' → ds.length = 1)

lemma isInteger_zero : IsInteger ['0'] := by
  refine ⟨fun c hc => ?_, List.cons_ne_nil _ _, fun _ => rfl⟩
  rw [List.mem_singleton.mp hc]
  rfl

def fractionText (ds : List Char) : List Char := if ds = [] then [] else '.' :: ds

def exponentText : Option ℤ → List Char
  | none   => []
  | some e => 'e' :: (if e < 0 then '-' else '+') :: Nat.toDigits 10 e.natAbs

/-- The text of a number, in its three parts. -/
def IsDecimal (text : List Char) (q : ℚ) : Prop :=
  ∃ (ds fraction : List Char) (exponent : Option ℤ),
    IsInteger ds ∧ (∀ c ∈ fraction, c.isDigit = true) ∧
    text = ds ++ fractionText fraction ++ exponentText exponent ∧
    q = digits (ds ++ fraction) * 10 ^ (exponent.getD 0 - fraction.length)

variable {ds fraction : List Char} {exponent : Option ℤ}

lemma span_digits (hds : ∀ c ∈ ds, c.isDigit = true) (hrest : ∀ c ∈ rest.head?, c.isDigit = false) :
    (ds ++ rest).span Char.isDigit = (ds, rest) := by
  rw [List.span_eq_takeWhile_dropWhile, List.takeWhile_append_of_pos hds,
    List.dropWhile_append_of_pos hds]
  cases rest with
  | nil => simp
  | cons c rest => simp [hrest c rfl]

lemma isDigit_toDigits (n : ℕ) : ∀ c ∈ Nat.toDigits 10 n, c.isDigit = true := fun _ hc =>
  Nat.isDigit_of_mem_toDigits (by decide) (by decide) hc

lemma Delimited.head (h : Delimited rest) : ∀ c ∈ rest.head?, c.isDigit = false ∧ c ≠ '.' :=
  fun _ hc => ⟨(h.not_digit hc).1, (h.not_digit hc).2.1⟩

lemma head_exponentText (exponent : Option ℤ) (h : Delimited rest) :
    ∀ c ∈ (exponentText exponent ++ rest).head?, c.isDigit = false ∧ c ≠ '.' := by
  cases exponent with
  | none => exact Delimited.head h
  | some e =>
    intro c hc
    obtain rfl := Option.some.inj hc
    decide

lemma parseExponent_text (h : Delimited rest) :
    parseExponent (exponentText exponent ++ rest) = some (exponent, rest) := by
  cases exponent with
  | none => exact parseExponent_delimited h
  | some e =>
    have hspan := span_digits (isDigit_toDigits e.natAbs) fun c hc => (Delimited.head h c hc).1
    have hdigits : digits (Nat.toDigits 10 e.natAbs) = e.natAbs := Nat.ofDigitChars_ten_toDigits
    have hsign : parseExponentSign ((if e < 0 then '-' else '+') ::
        (Nat.toDigits 10 e.natAbs ++ rest)) =
        (decide (e < 0), Nat.toDigits 10 e.natAbs ++ rest) := by
      by_cases he : e < 0
      · rw [if_pos he, decide_eq_true he]
        rfl
      · rw [if_neg he, decide_eq_false he]
        rfl
    have hvalue : (if decide (e < 0) = true then -(e.natAbs : ℤ) else e.natAbs) = e := by
      split
      · rename_i heq
        have hneg := of_decide_eq_true heq
        omega
      · rename_i heq
        have hpos := of_decide_eq_false (Bool.eq_false_iff.mpr heq)
        omega
    rw [exponentText, List.cons_append, parseExponent, if_pos (.inl rfl), List.cons_append, hsign]
    simp only [hspan, Nat.toDigits_ne_nil, if_false, hdigits, hvalue]

lemma parseFraction_text (hfraction : ∀ c ∈ fraction, c.isDigit = true) {s : List Char}
    (hs : ∀ c ∈ s.head?, c.isDigit = false ∧ c ≠ '.') :
    parseFraction (fractionText fraction ++ s) = some (fraction, s) := by
  unfold fractionText
  split_ifs with hnil
  · rw [hnil, List.nil_append]
    cases s with
    | nil => rfl
    | cons c s =>
      unfold parseFraction
      split
      · rename_i heq
        exact absurd (List.cons.inj heq).1 (hs c rfl).2
      · rfl
  · rw [List.cons_append, parseFraction, span_digits hfraction fun c hc => (hs c hc).1]
    exact if_neg hnil

/-- A number in its three parts is read back. -/
lemma parseNum_parts (hds : IsInteger ds) (hfraction : ∀ c ∈ fraction, c.isDigit = true)
    (h : Delimited rest) (negative : Bool) {s : List Char}
    (hs : parseSign s =
      (negative, ds ++ (fractionText fraction ++ (exponentText exponent ++ rest)))) :
    parseNum s = some (number
      (if negative = true then
        -(digits (ds ++ fraction) * 10 ^ (exponent.getD 0 - fraction.length))
      else digits (ds ++ fraction) * 10 ^ (exponent.getD 0 - fraction.length)), rest) := by
  obtain ⟨hdigits, hne, hlength⟩ := hds
  have hexponent := head_exponentText exponent h
  have hhead : ∀ c ∈ (fractionText fraction ++ (exponentText exponent ++ rest)).head?,
      c.isDigit = false := by
    unfold fractionText
    split_ifs
    · exact fun c hc => (hexponent c hc).1
    · intro c hc
      obtain rfl := Option.some.inj hc
      decide
  have hvalid : ¬ (ds = [] ∨ 1 < ds.length ∧ ds.head? = some '0') := by
    rintro (hnil | ⟨hlt, hzero⟩)
    · exact hne hnil
    · exact absurd (hlength hzero) hlt.ne'
  simp only [parseNum, hs, span_digits hdigits hhead, hvalid, if_false,
    parseFraction_text hfraction hexponent, parseExponent_text h, Option.bind_eq_bind,
    Option.bind_some, Option.pure_def]

lemma parseSign_digit {c : Char} (hc : c.isDigit = true) (s : List Char) :
    parseSign (c :: s) = (false, c :: s) := by
  unfold parseSign
  split
  · rename_i heq
    obtain ⟨rfl, -⟩ := List.cons.inj heq
    exact absurd hc (by decide)
  · rfl

lemma IsInteger.parseSign (hds : IsInteger ds) (s : List Char) :
    parseSign (ds ++ s) = (false, ds ++ s) := by
  obtain ⟨hdigits, hne, -⟩ := hds
  obtain ⟨c, ds, rfl⟩ := List.exists_cons_of_ne_nil hne
  exact parseSign_digit (hdigits c List.mem_cons_self) _

lemma parseNum_decimal {text : List Char} {q : ℚ} (htext : IsDecimal text q) (h : Delimited rest) :
    parseNum (text ++ rest) = some (number q, rest) ∧
      parseNum ('-' :: text ++ rest) = some (number (-q), rest) := by
  obtain ⟨ds, fraction, exponent, hds, hfraction, rfl, rfl⟩ := htext
  rw [List.cons_append, List.append_assoc, List.append_assoc]
  exact ⟨parseNum_parts hds hfraction h false (hds.parseSign _),
    parseNum_parts hds hfraction h true rfl⟩

lemma digits_append (ds ds' : List Char) :
    digits (ds ++ ds') = 10 ^ ds'.length * digits ds + digits ds' := by
  rw [digits, Nat.ofDigitChars_append, Nat.ofDigitChars_eq_ofDigitChars_zero]
  rfl

lemma digits_zeros (n : ℕ) : digits (List.replicate n '0') = 0 := by
  rw [digits, Nat.ofDigitChars_replicate_zero, mul_zero]

lemma isDigit_zeros (n : ℕ) : ∀ c ∈ List.replicate n '0', c.isDigit = true := by
  intro c hc
  rw [(List.mem_replicate.mp hc).2]
  rfl

lemma isDecimal_scientific {d : Char} (hdigits : ∀ c ∈ d :: ds, c.isDigit = true) (point : ℤ) :
    IsDecimal ([d] ++ fractionText ds ++ exponentText (some (point - 1)))
      (digits (d :: ds) * 10 ^ (point - (d :: ds).length)) := by
  obtain ⟨hd, hds⟩ := List.forall_mem_cons.mp hdigits
  refine ⟨[d], ds, some (point - 1), ⟨?_, ?_, ?_⟩, hds, rfl, ?_⟩
  · exact List.forall_mem_singleton.mpr hd
  · exact List.cons_ne_nil _ _
  · exact fun _ => rfl
  · rw [List.singleton_append, Option.getD_some, List.length_cons, Nat.cast_succ, ← sub_sub,
      sub_right_comm]

section Layout

variable (hdigits : ∀ c ∈ ds, c.isDigit = true) (hne : ds ≠ []) (hhead : ds.head? ≠ some '0')

include hdigits hne

lemma isDecimal_small (n : ℕ) :
    IsDecimal ('0' :: '.' :: (List.replicate n '0' ++ ds))
      (digits ds * 10 ^ (-(n : ℤ) - ds.length)) := by
  have hvalue : digits (['0'] ++ (List.replicate n '0' ++ ds)) = digits ds := by
    rw [digits_append, digits_append, digits_zeros, show digits ['0'] = 0 from rfl, mul_zero,
      mul_zero, zero_add, zero_add]
  refine ⟨['0'], List.replicate n '0' ++ ds, none, isInteger_zero, ?_, ?_, ?_⟩
  · exact List.forall_mem_append.mpr ⟨isDigit_zeros n, hdigits⟩
  · rw [fractionText, if_neg (List.append_ne_nil_of_right_ne_nil _ hne), exponentText,
      List.append_nil]
    rfl
  · rw [hvalue, List.length_append, List.length_replicate, Option.getD_none, Nat.cast_add, zero_sub,
      neg_add']

include hhead

lemma isDecimal_zeros (n : ℕ) :
    IsDecimal (ds ++ List.replicate n '0') (digits ds * 10 ^ (n : ℤ)) := by
  refine ⟨ds ++ List.replicate n '0', [], none, ⟨?_, ?_, ?_⟩, ?_, ?_, ?_⟩
  · exact List.forall_mem_append.mpr ⟨hdigits, isDigit_zeros n⟩
  · exact List.append_ne_nil_of_left_ne_nil hne _
  · rw [List.head?_append_of_ne_nil _ hne]
    exact fun hzero => absurd hzero hhead
  · exact fun c hc => absurd hc List.not_mem_nil
  · rw [fractionText, if_pos rfl, exponentText, List.append_nil, List.append_nil]
  · rw [List.append_nil, digits_append, digits_zeros, List.length_replicate]
    simp [mul_comm]

lemma isDecimal_split {n : ℕ} (hpos : 0 < n) (hlt : n < ds.length) :
    IsDecimal (ds.take n ++ '.' :: ds.drop n) (digits ds * 10 ^ ((n : ℤ) - ds.length)) := by
  have hdrop : ds.drop n ≠ [] := by
    rw [Ne, List.drop_eq_nil_iff]
    exact not_le.mpr hlt
  refine ⟨ds.take n, ds.drop n, none, ⟨?_, ?_, ?_⟩, ?_, ?_, ?_⟩
  · exact fun c hc => hdigits c (List.mem_of_mem_take hc)
  · rw [Ne, List.take_eq_nil_iff, not_or]
    exact ⟨hpos.ne', hne⟩
  · rw [List.head?_take, if_neg hpos.ne']
    exact fun hzero => absurd hzero hhead
  · exact fun c hc => hdigits c (List.mem_of_mem_drop hc)
  · rw [fractionText, if_neg hdrop, exponentText, List.append_nil]
  · rw [List.take_append_drop, List.length_drop, Option.getD_none, Nat.cast_sub hlt.le, zero_sub,
      neg_sub]

/-- The layout of some digits before a point writes their value. -/
lemma isDecimal_layout (point : ℤ) :
    IsDecimal (layout ds point) (digits ds * 10 ^ (point - ds.length)) := by
  unfold layout
  by_cases hint : ds.length ≤ point ∧ point ≤ 21
  · obtain ⟨n, hn⟩ := Int.eq_ofNat_of_zero_le (sub_nonneg.mpr hint.1)
    rw [if_pos hint, hn]
    exact isDecimal_zeros hdigits hne hhead n
  by_cases hpoint : 0 < point ∧ point ≤ 21
  · obtain ⟨n, rfl⟩ := Int.eq_ofNat_of_zero_le hpoint.1.le
    rw [if_neg hint, if_pos hpoint]
    exact isDecimal_split hdigits hne hhead (by omega) (by omega)
  by_cases hsmall : -6 < point ∧ point ≤ 0
  · obtain ⟨n, hn⟩ := Int.eq_ofNat_of_zero_le (neg_nonneg.mpr hsmall.2)
    obtain rfl : point = -n := by omega
    rw [if_neg hint, if_neg hpoint, if_pos hsmall, neg_neg]
    exact isDecimal_small hdigits hne n
  · obtain ⟨d, ds, rfl⟩ := List.exists_cons_of_ne_nil hne
    rw [if_neg hint, if_neg hpoint, if_neg hsmall]
    cases ds <;> exact isDecimal_scientific hdigits point

end Layout

/-- The text of a positive double has a decimal value that rounds to it. -/
lemma isDecimal_positiveToString {x : ℚ} (hx : IsDouble x) (hpos : 0 < x) :
    ∃ q, IsDecimal (positiveToString x) q ∧ roundDouble q = some x := by
  obtain ⟨s, e, hshortest, hrounds, hs⟩ := shortest_rounds hx hpos
  have hvalue : digits (Nat.toDigits 10 s) = s := Nat.ofDigitChars_ten_toDigits
  have hdecimal := isDecimal_layout (isDigit_toDigits s) Nat.toDigits_ne_nil
    (fun hzero => hs (toDigits_head s hzero)) ((Nat.toDigits 10 s).length + e)
  rw [hvalue, add_sub_cancel_left] at hdecimal
  refine ⟨_, ?_, hrounds⟩
  rw [positiveToString_eq hshortest]
  exact hdecimal

lemma number_eq {q : ℚ} {x : Double} (h : roundDouble q = some x.value) : number q = .num x := by
  unfold number
  rw [Double.round_eq h]

lemma parseNum_numberToString (x : Double) (h : Delimited rest) :
    parseNum (numberToString x.value ++ rest) = some (.num x, rest) := by
  unfold numberToString
  split_ifs with hzero hneg
  · have hvalue :
        ((0 : ℕ) : ℚ) * 10 ^ ((none : Option ℤ).getD 0 - ([] : List Char).length) = 0 := by
      rw [Nat.cast_zero, zero_mul]
    have hdecimal : IsDecimal ['0'] 0 :=
      ⟨['0'], [], none, isInteger_zero, fun c hc => absurd hc List.not_mem_nil, rfl, hvalue.symm⟩
    have hrounds := x.isDouble.roundDouble
    nth_rewrite 1 [hzero] at hrounds
    rw [(parseNum_decimal hdecimal h).1, number_eq hrounds]
  · obtain ⟨q, hdecimal, hrounds⟩ := isDecimal_positiveToString x.isDouble.neg (neg_pos.mpr hneg)
    have hrounds := roundDouble_neg hrounds
    rw [neg_neg] at hrounds
    rw [(parseNum_decimal hdecimal h).2, number_eq hrounds]
  · obtain ⟨q, hdecimal, hrounds⟩ := isDecimal_positiveToString x.isDouble
      (lt_of_le_of_ne (not_lt.mp hneg) (Ne.symm hzero))
    rw [(parseNum_decimal hdecimal h).1, number_eq hrounds]


/-! ### Values -/

lemma IsDecimal.head {text : List Char} {q : ℚ} (h : IsDecimal text q) :
    ∃ c s, text = c :: s ∧ c.isDigit = true := by
  obtain ⟨ds, fraction, exponent, ⟨hdigits, hne, -⟩, -, rfl, -⟩ := h
  obtain ⟨c, ds, rfl⟩ := List.exists_cons_of_ne_nil hne
  exact ⟨c, _, rfl, hdigits c List.mem_cons_self⟩

lemma head_numberToString (x : Double) :
    ∃ c s, numberToString x.value = c :: s ∧ (c = '-' ∨ c.isDigit = true) := by
  unfold numberToString
  split_ifs with hzero hneg
  · exact ⟨'0', [], rfl, .inr rfl⟩
  · exact ⟨'-', _, rfl, .inl rfl⟩
  · obtain ⟨q, hdecimal, -⟩ := isDecimal_positiveToString x.isDouble
      (lt_of_le_of_ne (not_lt.mp hneg) (Ne.symm hzero))
    obtain ⟨c, s, htext, hc⟩ := hdecimal.head
    exact ⟨c, s, htext, .inr hc⟩

/-- What stands at the start of a value. -/
lemma head_stringify (x : Json) : ∃ c s, stringify x = c :: s ∧ Starts c := by
  cases x with
  | null => exact ⟨_, _, rfl, by decide⟩
  | bool b => cases b <;> exact ⟨_, _, rfl, by decide⟩
  | num x =>
    obtain ⟨c, s, htext, hc⟩ := head_numberToString x
    exact ⟨c, s, htext, (starts_of_number hc).1⟩
  | str us => exact ⟨_, _, rfl, by decide⟩
  | arr items => exact ⟨_, _, rfl, by decide⟩
  | obj fields => exact ⟨_, _, rfl, by decide⟩

lemma parsePrimitive_number {c : Char} (h : c = '-' ∨ c.isDigit = true) :
    parsePrimitive (c :: rest) = parseNum (c :: rest) := by
  obtain ⟨-, -, -, hn, ht, hf, hq⟩ := starts_of_number h
  unfold parsePrimitive
  split
  · rename_i heq
    exact absurd (List.cons.inj heq).1 hn
  · rename_i heq
    exact absurd (List.cons.inj heq).1 ht
  · rename_i heq
    exact absurd (List.cons.inj heq).1 hf
  · rename_i heq
    exact absurd (List.cons.inj heq).1 hq
  · rfl

/-- A value that is no container. -/
lemma parseValue_primitive {c : Char} (hc : isWs c = false) (harr : c ≠ '[') (hobj : c ≠ '{')
    {fuel : ℕ} (hfuel : (c :: s).length ≤ fuel) (rest : List Char) :
    parseValue fuel (c :: s ++ rest) = parsePrimitive (c :: s ++ rest) := by
  rw [List.length_cons] at hfuel
  obtain ⟨fuel, rfl⟩ := Nat.exists_eq_succ_of_ne_zero (by omega : fuel ≠ 0)
  rw [List.cons_append, parseValue, skipWs_cons hc]
  split
  · rename_i heq
    exact absurd (List.cons.inj heq).1 harr
  · rename_i heq
    exact absurd (List.cons.inj heq).1 hobj
  · rfl

/-- The reader reads this value back wherever it stands. -/
def ReadsBack (x : Json) : Prop :=
  ∀ fuel rest, (stringify x).length ≤ fuel → Delimited rest →
    parseValue fuel (stringify x ++ rest) = some (x.toValue, rest)

section Containers

variable {x : Json} {items : List Json} {fields : List (JsString × Json)} {key : JsString}

lemma parseItems_stringify (h : ∀ y ∈ x :: items, ReadsBack y) (rest : List Char) {fuel : ℕ}
    (hfuel : (commas (stringifyItems (x :: items))).length < fuel) :
    parseItems fuel (commas (stringifyItems (x :: items)) ++ ']' :: rest) =
      some (toValues (x :: items), rest) := by
  induction items generalizing x fuel with
  | nil =>
    obtain ⟨fuel, rfl⟩ := Nat.exists_eq_succ_of_ne_zero (by omega : fuel ≠ 0)
    simp only [stringifyItems, commas] at hfuel ⊢
    have hvalue := h x List.mem_cons_self fuel (']' :: rest) (by omega)
      (delimited_cons (.inr (.inl rfl)))
    rw [parseItems, hvalue]
    rfl
  | cons y items ih =>
    obtain ⟨fuel, rfl⟩ := Nat.exists_eq_succ_of_ne_zero (by omega : fuel ≠ 0)
    obtain ⟨hx, hitems⟩ := List.forall_mem_cons.mp h
    have hcommas : commas (stringifyItems (x :: y :: items)) =
        stringify x ++ ',' :: commas (stringifyItems (y :: items)) := rfl
    rw [hcommas, List.length_append, List.length_cons] at hfuel
    have hvalue := hx fuel (',' :: (commas (stringifyItems (y :: items)) ++ ']' :: rest)) (by omega)
      (delimited_cons (.inl rfl))
    have hread := ih hitems (by omega : _ < fuel)
    have hcomma : ∀ s, skipWs (',' :: s) = ',' :: s := fun _ => rfl
    rw [hcommas, List.append_assoc, List.cons_append, parseItems, hvalue]
    simp only [Option.bind_eq_bind, Option.bind_some, hcomma, hread]
    rfl

lemma parseFields_stringify (h : ∀ field ∈ (key, x) :: fields, ReadsBack field.2)
    (rest : List Char) {fuel : ℕ}
    (hfuel : (commas (stringifyFields ((key, x) :: fields))).length < fuel) :
    parseFields fuel (commas (stringifyFields ((key, x) :: fields)) ++ '}' :: rest) =
      some (toFields ((key, x) :: fields), rest) := by
  have hquote : ∀ s, skipWs ('"' :: s) = '"' :: s := fun _ => rfl
  have hcolon : ∀ s, skipWs (':' :: s) = ':' :: s := fun _ => rfl
  have hcomma : ∀ s, skipWs (',' :: s) = ',' :: s := fun _ => rfl
  have hbrace : ∀ s, skipWs ('}' :: s) = '}' :: s := fun _ => rfl
  induction fields generalizing key x fuel with
  | nil =>
    obtain ⟨fuel, rfl⟩ := Nat.exists_eq_succ_of_ne_zero (by omega : fuel ≠ 0)
    simp only [stringifyFields, commas, field, quote, List.length_append, List.length_cons] at hfuel
    have hlength : (stringify x).length ≤ fuel := by omega
    have hvalue := h (key, x) List.mem_cons_self fuel ('}' :: rest) hlength
      (delimited_cons (.inr (.inr rfl)))
    simp only [stringifyFields, commas, field, quote, List.cons_append, List.append_assoc,
      List.nil_append, parseFields, hquote, parseString_quote, Option.bind_eq_bind,
      Option.bind_some, hcolon, hvalue, hbrace]
    rfl
  | cons other fields ih =>
    obtain ⟨key', y⟩ := other
    obtain ⟨fuel, rfl⟩ := Nat.exists_eq_succ_of_ne_zero (by omega : fuel ≠ 0)
    obtain ⟨hx, hfields⟩ := List.forall_mem_cons.mp h
    have hcommas : commas (stringifyFields ((key, x) :: (key', y) :: fields)) =
        field key (stringify x) ++ ',' :: commas (stringifyFields ((key', y) :: fields)) := rfl
    rw [hcommas] at hfuel ⊢
    simp only [field, quote, List.length_append, List.length_cons] at hfuel
    have hlength : (stringify x).length ≤ fuel := by omega
    have hvalue := hx fuel (',' :: (commas (stringifyFields ((key', y) :: fields)) ++ '}' :: rest))
      hlength (delimited_cons (.inl rfl))
    have hread := ih hfields (by omega : _ < fuel)
    simp only [field, quote, List.cons_append, List.append_assoc, List.nil_append, parseFields,
      hquote, parseString_quote, Option.bind_eq_bind, Option.bind_some, hcolon, hvalue, hcomma,
      hread]
    rfl

lemma map_fst_toFields (fields : List (JsString × Json)) :
    (toFields fields).map Prod.fst = fields.map Prod.fst := by
  induction fields with
  | nil => rfl
  | cons field fields ih => rw [toFields, List.map_cons, List.map_cons, ih]

lemma lastWins_distinct {fields : List (JsString × Value)} (h : Distinct fields) :
    lastWins fields = fields := by
  induction fields with
  | nil => rfl
  | cons field fields ih =>
    obtain ⟨hkey, hfields⟩ := List.nodup_cons.mp h
    rw [lastWins, if_neg hkey, ih hfields]

lemma head_items (x : Json) (items : List Json) :
    ∃ c s, commas (stringifyItems (x :: items)) = c :: s ∧ Starts c := by
  obtain ⟨c, s, htext, hc⟩ := head_stringify x
  cases items with
  | nil => exact ⟨c, s, htext, hc⟩
  | cons y items => exact ⟨c, _, congrArg (· ++ _) htext, hc⟩

lemma head_fields (field : JsString × Json) (fields : List (JsString × Json)) :
    ∃ s, commas (stringifyFields (field :: fields)) = '"' :: s := by
  cases fields with
  | nil => exact ⟨_, rfl⟩
  | cons other fields => exact ⟨_, rfl⟩

lemma readsBack_arr (h : ∀ x ∈ items, ReadsBack x) : ReadsBack (.arr items) := by
  intro fuel rest hfuel hrest
  rw [stringify, List.length_cons, List.length_append, List.length_singleton] at hfuel
  obtain ⟨fuel, rfl⟩ := Nat.exists_eq_succ_of_ne_zero (by omega : fuel ≠ 0)
  cases items with
  | nil => rfl
  | cons x items =>
    have hread := parseItems_stringify h rest (by omega : _ < fuel)
    obtain ⟨c, s, htext, hws, hne, -⟩ := head_items x items
    have hbracket : ∀ s, skipWs ('[' :: s) = '[' :: s := fun _ => rfl
    rw [htext, List.cons_append] at hread
    rw [stringify, List.cons_append, List.append_assoc, List.singleton_append, htext, parseValue,
      hbracket]
    split
    · rename_i heq
      rw [← (List.cons.inj heq).2, List.cons_append, skipWs_cons hws]
      split
      · rename_i heq
        exact absurd (List.cons.inj heq).1 hne
      · rw [hread]
        rfl
    · rename_i heq
      exact absurd (List.cons.inj heq).1 (by decide)
    · rename_i hother _
      exact absurd rfl (hother _)

lemma readsBack_obj (hkeys : Distinct fields) (h : ∀ field ∈ fields, ReadsBack field.2) :
    ReadsBack (.obj fields) := by
  intro fuel rest hfuel hrest
  rw [stringify, List.length_cons, List.length_append, List.length_singleton] at hfuel
  obtain ⟨fuel, rfl⟩ := Nat.exists_eq_succ_of_ne_zero (by omega : fuel ≠ 0)
  cases fields with
  | nil => rfl
  | cons field fields =>
    obtain ⟨key, x⟩ := field
    have hread := parseFields_stringify h rest (by omega : _ < fuel)
    have hdistinct : Distinct (toFields ((key, x) :: fields)) := by
      rwa [Distinct, map_fst_toFields]
    obtain ⟨s, htext⟩ := head_fields (key, x) fields
    have hbrace : ∀ s, parseValue (fuel + 1) ('{' :: '"' :: s) =
        (parseFields fuel ('"' :: s)).map (Prod.map (Value.obj ∘ lastWins) id) := fun _ => rfl
    rw [htext, List.cons_append] at hread
    rw [stringify, List.cons_append, List.append_assoc, List.singleton_append, htext,
      List.cons_append, hbrace, hread, Option.map_some, Prod.map_apply, Function.comp_apply,
      lastWins_distinct hdistinct]
    rfl

end Containers

theorem DistinctKeys.readsBack {x : Json} (h : DistinctKeys x) : ReadsBack x := by
  induction h with
  | null =>
    intro fuel rest hfuel hrest
    exact (parseValue_primitive rfl (by decide) (by decide) hfuel rest).trans rfl
  | bool b =>
    intro fuel rest hfuel hrest
    cases b <;> exact (parseValue_primitive rfl (by decide) (by decide) hfuel rest).trans rfl
  | num x =>
    intro fuel rest hfuel hrest
    obtain ⟨c, s, htext, hc⟩ := head_numberToString x
    obtain ⟨⟨hws, -, -⟩, harr, hobj, -⟩ := starts_of_number hc
    have hnum := parseNum_numberToString x hrest
    rw [stringify, htext] at hfuel ⊢
    rw [htext] at hnum
    rw [parseValue_primitive hws harr hobj hfuel, List.cons_append, parsePrimitive_number hc]
    exact hnum
  | str us =>
    intro fuel rest hfuel hrest
    have hquote : ∀ s, parsePrimitive ('"' :: s) = (parseString s).map (Prod.map .str id) :=
      fun _ => rfl
    rw [stringify, quote] at hfuel ⊢
    rw [parseValue_primitive rfl (by decide) (by decide) hfuel, List.cons_append, hquote,
      List.append_assoc, List.singleton_append, parseString_quote]
    rfl
  | arr h ih => exact readsBack_arr ih
  | obj hkeys h ih => exact readsBack_obj hkeys ih

/-- What is written is read back. -/
theorem parse_stringify {x : Json} (h : DistinctKeys x) : parse (stringify x) = some x.toValue := by
  have hend : Delimited [] := fun c hc => by cases hc
  have hvalue := h.readsBack (2 * (stringify x).length + 1) [] (by omega) hend
  rw [List.append_nil] at hvalue
  rw [parse, hvalue]
  rfl


/-! ### Key order -/

section Normalize

variable {items items' : List Json} {fields fields' : List (JsString × Json)} {key : JsString}
  {x y : Json}

lemma normalizeItems_eq_map (items : List Json) : normalizeItems items = items.map normalize := by
  induction items with
  | nil => rfl
  | cons x items ih => rw [normalizeItems, ih, List.map_cons]

lemma normalizeFields_eq_map (fields : List (JsString × Json)) :
    normalizeFields fields = fields.map (Prod.map id normalize) := by
  induction fields with
  | nil => rfl
  | cons field fields ih => rw [normalizeFields, ih, List.map_cons]; rfl

lemma toValues_eq_map (items : List Json) : toValues items = items.map Json.toValue := by
  induction items with
  | nil => rfl
  | cons x items ih => rw [toValues, ih, List.map_cons]

lemma toFields_eq_map (fields : List (JsString × Json)) :
    toFields fields = fields.map (Prod.map id Json.toValue) := by
  induction fields with
  | nil => rfl
  | cons field fields ih => rw [toFields, ih, List.map_cons]; rfl

lemma mem_normalizeFields :
    (key, y) ∈ normalizeFields fields ↔ ∃ x, (key, x) ∈ fields ∧ normalize x = y := by
  rw [normalizeFields_eq_map, List.mem_map]
  constructor
  · rintro ⟨⟨key, x⟩, hmem, heq⟩
    obtain ⟨rfl, rfl⟩ := Prod.mk.inj heq
    exact ⟨x, hmem, rfl⟩
  · rintro ⟨x, hmem, rfl⟩
    exact ⟨(key, x), hmem, rfl⟩

lemma Distinct.eq {α : Type} {fields : List (JsString × α)} {x y : α} (h : Distinct fields)
    (hx : (key, x) ∈ fields) (hy : (key, y) ∈ fields) : x = y :=
  (Prod.mk.inj (List.inj_on_of_nodup_map h hx hy rfl)).2

lemma Distinct.perm {α : Type} {fields fields' : List (JsString × α)} (h : Distinct fields)
    (hperm : fields.Perm fields') : Distinct fields' :=
  (hperm.map Prod.fst).nodup_iff.mp h

lemma Distinct.normal (h : Distinct fields) : Distinct (normalizeFields fields) := by
  rw [Distinct, normalizeFields_eq_map, List.map_map]
  exact h

/-- Only the fields count, not their order. -/
lemma sorted_byKey_eq {α : Type} {fields fields' : List (JsString × α)} (h : Distinct fields)
    (h' : Distinct fields') (hmem : ∀ field, field ∈ fields ↔ field ∈ fields') :
    Canonical.sorted byKey fields = Canonical.sorted byKey fields' := by
  refine Canonical.sorted_eq_of_mem_iff (fun field hf field' hf' heq => ?_) h.of_map h'.of_map hmem
  exact List.inj_on_of_nodup_map h hf hf' (Std.LawfulEqCmp.eq_of_compare heq)

lemma DistinctKeys.normal (h : DistinctKeys x) : DistinctKeys (normalize x) := by
  induction h with
  | null => exact .null
  | bool b => exact .bool b
  | num x => exact .num x
  | str s => exact .str s
  | arr h ih =>
    refine .arr fun y hy => ?_
    rw [normalizeItems_eq_map] at hy
    obtain ⟨x, hx, rfl⟩ := List.mem_map.mp hy
    exact ih x hx
  | obj hkeys h ih =>
    refine .obj (hkeys.normal.perm (Canonical.sorted_perm _ _).symm) fun field hf => ?_
    obtain ⟨key, y⟩ := field
    obtain ⟨x, hx, rfl⟩ := mem_normalizeFields.mp (Canonical.mem_sorted.mp hf)
    exact ih (key, x) hx

lemma zip_map_eq_iff {α β : Type} {f : α → β} {l l' : List α} :
    l.map f = l'.map f ↔ l.length = l'.length ∧ ∀ pair ∈ l.zip l', f pair.1 = f pair.2 := by
  induction l generalizing l' with
  | nil => cases l' <;> simp
  | cons a l ih =>
    cases l' with
    | nil => simp
    | cons a' l' =>
      rw [List.map_cons, List.map_cons, List.cons.injEq, ih, List.length_cons, List.length_cons,
        Nat.add_right_cancel_iff, List.zip_cons_cons, List.forall_mem_cons]
      exact and_left_comm

lemma mem_keys {α : Type} {fields : List (JsString × α)} :
    key ∈ fields.map Prod.fst ↔ ∃ x, (key, x) ∈ fields := by
  rw [List.mem_map]
  constructor
  · rintro ⟨⟨key, x⟩, hmem, rfl⟩
    exact ⟨x, hmem⟩
  · rintro ⟨x, hmem⟩
    exact ⟨(key, x), hmem, rfl⟩

/-- Values with their keys in order are equal when the values are. -/
theorem normalize_eq_iff (hx : DistinctKeys x) (hy : DistinctKeys y) :
    normalize x = normalize y ↔ Same x y := by
  constructor
  · intro h
    induction hx generalizing y with
    | null => cases hy <;> first | exact .null | cases h
    | bool b => cases hy <;> cases h; exact .bool b
    | num x => cases hy <;> cases h; exact .num x
    | str s => cases hy <;> cases h; exact .str s
    | arr hitems ih =>
      cases hy with
      | arr hitems' =>
        have h := Json.arr.inj h
        rw [normalizeItems_eq_map, normalizeItems_eq_map, zip_map_eq_iff] at h
        refine .arr h.1 fun pair hpair => ?_
        obtain ⟨hleft, hright⟩ := List.of_mem_zip hpair
        exact ih pair.1 hleft (hitems' pair.2 hright) (h.2 pair hpair)
      | _ => cases h
    | @obj fields hkeys hfields ih =>
      cases hy with
      | @obj fields' hkeys' hfields' =>
        have hmem : ∀ key y, (∃ x, (key, x) ∈ fields ∧ normalize x = y) ↔
            ∃ x, (key, x) ∈ fields' ∧ normalize x = y := by
          intro key y
          rw [← mem_normalizeFields, ← mem_normalizeFields, ← Canonical.mem_sorted,
            Json.obj.inj h, Canonical.mem_sorted]
        refine .obj (fun key => ?_) fun key x x' hx hx' => ?_
        · rw [mem_keys, mem_keys]
          constructor
          · rintro ⟨x, hx⟩
            obtain ⟨x', hx', -⟩ := (hmem key (normalize x)).mp ⟨x, hx, rfl⟩
            exact ⟨x', hx'⟩
          · rintro ⟨x', hx'⟩
            obtain ⟨x, hx, -⟩ := (hmem key (normalize x')).mpr ⟨x', hx', rfl⟩
            exact ⟨x, hx⟩
        · obtain ⟨y, hy, heq⟩ := (hmem key (normalize x)).mp ⟨x, hx, rfl⟩
          obtain rfl := hkeys'.eq hx' hy
          exact ih (key, x) hx (hfields' (key, x') hx') heq.symm
      | _ => cases h
  · intro h
    induction h with
    | null => rfl
    | bool b => rfl
    | num x => rfl
    | str s => rfl
    | arr hlength h ih =>
      cases hx with
      | arr hitems =>
        cases hy with
        | arr hitems' =>
          rw [normalize, normalize, normalizeItems_eq_map, normalizeItems_eq_map, Json.arr.injEq,
            zip_map_eq_iff]
          refine ⟨hlength, fun pair hpair => ?_⟩
          obtain ⟨hleft, hright⟩ := List.of_mem_zip hpair
          exact ih pair hpair (hitems pair.1 hleft) (hitems' pair.2 hright)
    | @obj fields fields' hmem h ih =>
      cases hx with
      | obj hkeys hfields =>
        cases hy with
        | obj hkeys' hfields' =>
          have hboth : ∀ key x x', (key, x) ∈ fields → (key, x') ∈ fields' →
              normalize x = normalize x' := fun key x x' hx hx' =>
            ih key x x' hx hx' (hfields (key, x) hx) (hfields' (key, x') hx')
          refine congrArg Json.obj (sorted_byKey_eq hkeys.normal hkeys'.normal ?_)
          rintro ⟨key, y⟩
          rw [mem_normalizeFields, mem_normalizeFields]
          constructor
          · rintro ⟨x, hx, rfl⟩
            obtain ⟨x', hx'⟩ := mem_keys.mp ((hmem key).mp (mem_keys.mpr ⟨x, hx⟩))
            exact ⟨x', hx', (hboth key x x' hx hx').symm⟩
          · rintro ⟨x', hx', rfl⟩
            obtain ⟨x, hx⟩ := mem_keys.mp ((hmem key).mpr (mem_keys.mpr ⟨x', hx'⟩))
            exact ⟨x, hx, hboth key x x' hx hx'⟩

lemma exists_of_mem_zip_map {α β : Type} {f : α → β} {l : List α} {pair : α × β}
    (h : pair ∈ l.zip (l.map f)) : ∃ a ∈ l, pair = (a, f a) := by
  induction l with
  | nil => cases h
  | cons a l ih =>
    rw [List.map_cons, List.zip_cons_cons] at h
    rcases List.mem_cons.mp h with rfl | h
    · exact ⟨a, List.mem_cons_self, rfl⟩
    · obtain ⟨b, hb, rfl⟩ := ih h
      exact ⟨b, List.mem_cons_of_mem _ hb, rfl⟩

/-- With its keys in order, a value is the same. -/
lemma DistinctKeys.same_normalize (h : DistinctKeys x) : Same x (normalize x) := by
  induction h with
  | null => exact .null
  | bool b => exact .bool b
  | num x => exact .num x
  | str s => exact .str s
  | @arr items h ih =>
    rw [normalize, normalizeItems_eq_map]
    refine .arr (List.length_map _).symm fun pair hpair => ?_
    obtain ⟨x, hx, rfl⟩ := exists_of_mem_zip_map hpair
    exact ih x hx
  | @obj fields hkeys h ih =>
    refine .obj (fun key => ?_) fun key x y hx hy => ?_
    · rw [((Canonical.sorted_perm byKey (normalizeFields fields)).map Prod.fst).mem_iff, mem_keys,
        mem_keys]
      constructor
      · rintro ⟨x, hx⟩
        exact ⟨_, mem_normalizeFields.mpr ⟨x, hx, rfl⟩⟩
      · rintro ⟨y, hy⟩
        obtain ⟨x, hx, -⟩ := mem_normalizeFields.mp hy
        exact ⟨x, hx⟩
    · obtain ⟨x', hx', rfl⟩ := mem_normalizeFields.mp (Canonical.mem_sorted.mp hy)
      obtain rfl := hkeys.eq hx hx'
      exact ih (key, x) hx

lemma eq_of_map_eq {α β : Type} {f : α → β} {l l' : List α}
    (hf : ∀ a ∈ l, ∀ a', f a = f a' → a = a') (h : l.map f = l'.map f) : l = l' := by
  induction l generalizing l' with
  | nil => exact (List.map_eq_nil_iff.mp h.symm).symm
  | cons a l ih =>
    obtain ⟨ha, hl⟩ := List.forall_mem_cons.mp hf
    obtain ⟨a', l', rfl, heq, htail⟩ := List.map_eq_cons_iff.mp h.symm
    rw [ha a' heq.symm, ih hl htail.symm]

lemma toValue_inj (hx : DistinctKeys x) (h : x.toValue = y.toValue) : x = y := by
  induction hx generalizing y with
  | null => cases y <;> first | rfl | cases h
  | bool b => cases y <;> cases h; rfl
  | num x => cases y <;> cases h; rfl
  | str s => cases y <;> cases h; rfl
  | arr hitems ih =>
    cases y with
    | arr items' =>
      have h := Value.arr.inj h
      rw [toValues_eq_map, toValues_eq_map] at h
      rw [eq_of_map_eq (fun x hx x' => ih x hx) h]
    | _ => cases h
  | obj hkeys hfields ih =>
    cases y with
    | obj fields' =>
      have h := Value.obj.inj h
      rw [toFields_eq_map, toFields_eq_map] at h
      refine congrArg Json.obj (eq_of_map_eq (fun field hf field' heq => ?_) h)
      obtain ⟨hkey, hvalue⟩ := Prod.mk.inj heq
      exact Prod.ext hkey (ih field hf hvalue)
    | _ => cases h

/-- With their keys in order, values with the same text are the same. -/
theorem stringify_normalize_eq_iff (hx : DistinctKeys x) (hy : DistinctKeys y) :
    stringify (normalize x) = stringify (normalize y) ↔ Same x y := by
  rw [← normalize_eq_iff hx hy]
  refine ⟨fun h => ?_, congrArg stringify⟩
  have hread := parse_stringify hx.normal
  rw [h, parse_stringify hy.normal] at hread
  exact (toValue_inj hy.normal (Option.some.inj hread)).symm

end Normalize

end JsJson
