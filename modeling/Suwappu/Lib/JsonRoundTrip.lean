import Suwappu.Lib.JsonText

/-!
# JSON text read back

`parse_render`: what is written is read back, with its wide integers as floats. `Plain.printed`: it
stands in one line.
-/

namespace JsonText

/-! ### Strings -/

variable {c : Char} {rest : List Char} {s : List Char}

lemma skipWs_cons (h : isWs c = false) : skipWs (c :: rest) = c :: rest := by
  rw [skipWs, List.dropWhile_cons_of_neg (by simp [h])]

lemma parseUnicode_control {n : ℕ} (h : n < 0x20) :
    parseUnicode ('0' :: '0' :: hexDigit (n / 16) :: hexDigit (n % 16) :: rest) =
      some (Char.ofNat n, rest) := by
  interval_cases n <;> rfl

/-- One written character is read back, whatever follows it. -/
lemma parseChars_escape (c : Char) (fuel : ℕ) (s : List Char) :
    parseChars (fuel + 1) (escape c ++ s) =
      (parseChars fuel s).map (Prod.map (List.cons c) id) := by
  have hbind : ∀ x : Option (List Char × List Char), (do
      let read ← x
      return (c :: read.1, read.2)) = x.map (Prod.map (List.cons c) id) := fun x => by
    cases x <;> rfl
  unfold escape
  split_ifs with h₁ h₂ h₃ h₄ h₅ h₆ h₇ h₈
  · subst h₁
    exact hbind _
  · subst h₂
    exact hbind _
  · subst h₃
    exact hbind _
  · subst h₄
    exact hbind _
  · subst h₅
    exact hbind _
  · subst h₆
    exact hbind _
  · subst h₇
    exact hbind _
  · have hunicode : ∀ x, parseChars (fuel + 1) ('\\' :: 'u' :: x) = (do
        let char ← parseUnicode x
        let read ← parseChars fuel char.2
        return (char.1 :: read.1, read.2)) := fun _ => rfl
    simp only [List.cons_append, List.nil_append, hunicode, parseUnicode_control h₈,
      Char.ofNat_toNat]
    exact hbind _
  · simp only [List.cons_append, List.nil_append, parseChars, if_neg h₁, if_neg h₂, if_neg h₈]
    exact hbind _

lemma parseChars_render (cs : List Char) {fuel : ℕ} (h : cs.length < fuel) :
    parseChars fuel (cs.flatMap escape ++ '"' :: rest) = some (cs, rest) := by
  induction cs generalizing fuel with
  | nil =>
    obtain ⟨fuel, rfl⟩ := Nat.exists_eq_succ_of_ne_zero (by omega : fuel ≠ 0)
    rfl
  | cons c cs ih =>
    rw [List.length_cons] at h
    obtain ⟨fuel, rfl⟩ := Nat.exists_eq_succ_of_ne_zero (by omega : fuel ≠ 0)
    rw [List.flatMap_cons, List.append_assoc, parseChars_escape, ih (by omega)]
    rfl

lemma escape_ne_nil (c : Char) : escape c ≠ [] := by
  unfold escape
  split_ifs <;> simp

lemma length_le_flatMap_escape (cs : List Char) : cs.length ≤ (cs.flatMap escape).length := by
  induction cs with
  | nil => exact le_rfl
  | cons c cs ih =>
    have hpos := List.length_pos_of_ne_nil (escape_ne_nil c)
    rw [List.flatMap_cons, List.length_append, List.length_cons]
    omega

lemma parseStr_render (s : String) :
    parseStr (s.toList.flatMap escape ++ '"' :: rest) = some (s, rest) := by
  have hle := length_le_flatMap_escape s.toList
  rw [parseStr, parseChars_render s.toList (by rw [List.length_append]; omega)]
  simp

/-! ### Numbers -/

lemma toDigits_head (n : ℕ) : (Nat.toDigits 10 n).head? = some '0' → n = 0 := by
  induction n using Nat.strong_induction_on with
  | _ n ih =>
    intro h
    by_cases hn : n < 10
    · rw [Nat.toDigits_of_lt_base hn, List.head?_cons, Option.some.injEq,
        Nat.digitChar_eq_zero] at h
      exact h
    · rw [Nat.toDigits_of_base_le (by decide) (not_lt.mp hn),
        List.head?_append_of_ne_nil _ Nat.toDigits_ne_nil] at h
      have hzero := ih (n / 10) (by omega) h
      omega

lemma toDigits_zero_length {n : ℕ} (h : (Nat.toDigits 10 n).head? = some '0') :
    (Nat.toDigits 10 n).length = 1 := by
  rw [toDigits_head n h]
  rfl

/-- The end of the text, or of an item or a field. -/
def Delimited (rest : List Char) : Prop :=
  ∀ c ∈ rest.head?, c = ',' ∨ c = ']' ∨ c = '}'

lemma Delimited.not_digit (h : Delimited rest) (hc : rest.head? = some c) :
    c.isDigit = false ∧ c ≠ '.' ∧ c ≠ 'e' ∧ c ≠ 'E' := by
  rcases h c hc with rfl | rfl | rfl <;> decide

lemma span_toDigits (n : ℕ) (h : Delimited rest) :
    (Nat.toDigits 10 n ++ rest).span Char.isDigit = (Nat.toDigits 10 n, rest) := by
  have hall : ∀ c ∈ Nat.toDigits 10 n, c.isDigit = true := fun c hc =>
    Nat.isDigit_of_mem_toDigits (by decide) (by decide) hc
  rw [List.span_eq_takeWhile_dropWhile, List.takeWhile_append_of_pos hall,
    List.dropWhile_append_of_pos hall]
  cases rest with
  | nil => simp
  | cons c rest =>
    have hc := (h.not_digit (c := c) rfl).1
    simp [hc]

lemma parseFraction_delimited (h : Delimited rest) : parseFraction rest = some ([], rest) := by
  cases rest with
  | nil => rfl
  | cons c rest =>
    have hc := (h.not_digit (c := c) rfl).2.1
    unfold parseFraction
    split
    · rename_i heq
      exact absurd (List.cons.inj heq).1 hc
    · rfl

lemma parseExponent_delimited (h : Delimited rest) : parseExponent rest = some (none, rest) := by
  cases rest with
  | nil => rfl
  | cons c rest =>
    have hc := (h.not_digit (c := c) rfl).2.2
    rw [parseExponent, if_neg (by simp [hc])]

lemma parseSign_toDigits (n : ℕ) :
    parseSign (Nat.toDigits 10 n ++ rest) = (false, Nat.toDigits 10 n ++ rest) := by
  unfold parseSign
  split
  · rename_i heq
    have hdigit : ('-' : Char).isDigit = true := by
      refine Nat.isDigit_of_mem_toDigits (b := 10) (n := n) (by decide) (by decide) ?_
      cases hdigits : Nat.toDigits 10 n with
      | nil => exact absurd hdigits Nat.toDigits_ne_nil
      | cons d ds =>
        rw [hdigits, List.cons_append] at heq
        exact (List.cons.inj heq).1 ▸ List.mem_cons_self
    exact absurd hdigit (by decide)
  · rfl

/-- An integer, or the float it is read as. -/
def narrowInt (z : ℤ) : Tree := if Fits z then .int z else .float (renderInt z)

/-- A double holds every integer of this size, however rounded. -/
lemma overflows_eq_false {n : ℕ} (h : n < 2 ^ 1000) : overflows n 0 = false := by
  have hcast : (n : ℚ) < 2 ^ 1000 := by exact_mod_cast h
  rw [overflows, decide_eq_false_iff_not, not_le, zpow_zero, mul_one]
  calc (n : ℚ) < 2 ^ 1000 := hcast
    _ = 2 ^ 970 * 2 ^ 30 := by rw [← pow_add]
    _ ≤ 2 ^ 970 * (2 ^ 54 - 1) := mul_le_mul_of_nonneg_left (by norm_num) (by positivity)
    _ = 2 ^ 1024 - 2 ^ 970 := by rw [mul_sub, ← pow_add, mul_one]

lemma parseNumber_render {z : ℤ} (hz : z.natAbs < 2 ^ 1000) (h : Delimited rest) :
    parseNumber (renderInt z ++ rest) = some (narrowInt z, rest) := by
  have hlength : ¬ (Nat.toDigits 10 z.natAbs = [] ∨ 1 < (Nat.toDigits 10 z.natAbs).length ∧
      (Nat.toDigits 10 z.natAbs).head? = some '0') := by
    rintro (hnil | ⟨hlt, hhead⟩)
    · exact Nat.toDigits_ne_nil hnil
    · rw [toDigits_zero_length hhead] at hlt
      exact absurd hlt (by decide)
  have hdigits : digits (Nat.toDigits 10 z.natAbs) = z.natAbs := Nat.ofDigitChars_ten_toDigits
  have htake : (renderInt z ++ rest).take ((renderInt z ++ rest).length - rest.length) =
      renderInt z := by
    rw [List.length_append, Nat.add_sub_cancel, List.take_left]
  have hsign : parseSign (renderInt z ++ rest) =
      (decide (z < 0), Nat.toDigits 10 z.natAbs ++ rest) := by
    unfold renderInt
    split
    · rename_i hneg
      rw [decide_eq_true hneg]
      rfl
    · rename_i hneg
      rw [decide_eq_false hneg]
      exact parseSign_toDigits _
  have hvalue : (if decide (z < 0) = true then -((z.natAbs : ℕ) : ℤ) else z.natAbs) = z := by
    split
    · rename_i hneg
      have := of_decide_eq_true hneg
      omega
    · rename_i hneg
      have := of_decide_eq_false (Bool.eq_false_iff.mpr hneg)
      omega
  have hzero : ¬ (decide (z < 0) = true ∧ z = 0) := by
    rintro ⟨hneg, rfl⟩
    exact absurd hneg (by decide)
  simp only [parseNumber, hsign, span_toDigits _ h, hlength, if_false, parseFraction_delimited h,
    parseExponent_delimited h, Option.bind_eq_bind, Option.bind_some, Option.pure_def, hdigits,
    hvalue, hzero, not_false_eq_true, and_true, true_and, List.append_nil, Option.getD_none,
    List.length_nil, Nat.cast_zero, sub_zero, overflows_eq_false hz, htake, narrowInt,
    Bool.false_eq_true]
  split <;> rfl

/-! ### Values -/

mutual

/-- The tree that a reader makes of the text: a wide integer is a float. -/
def narrow : Tree → Tree
  | .int z      => narrowInt z
  | .arr items  => .arr (narrowItems items)
  | .obj fields => .obj (narrowFields fields)
  | .null       => .null
  | .bool b     => .bool b
  | .float text => .float text
  | .str s      => .str s

def narrowItems : List Tree → List Tree
  | []         => []
  | t :: items => narrow t :: narrowItems items

def narrowFields : List (String × Tree) → List (String × Tree)
  | []                 => []
  | (key, t) :: fields => (key, narrow t) :: narrowFields fields

end

/-- A tree without floats, and with at most `depth` arrays and objects around each other. -/
inductive Plain : ℕ → Tree → Prop
  | null {depth : ℕ} : Plain depth .null
  | bool {depth : ℕ} (b : Bool) : Plain depth (.bool b)
  | int {depth : ℕ} {z : ℤ} (hz : z.natAbs < 2 ^ 1000) : Plain depth (.int z)
  | str {depth : ℕ} (s : String) : Plain depth (.str s)
  | arr {depth : ℕ} {items : List Tree} (h : ∀ t ∈ items, Plain depth t) :
    Plain (depth + 1) (.arr items)
  | obj {depth : ℕ} {fields : List (String × Tree)} (h : ∀ field ∈ fields, Plain depth field.2) :
    Plain (depth + 1) (.obj fields)

/-- A machine integer. -/
lemma Plain.of_lt {depth : ℕ} {z : ℤ} (h : z.natAbs < 2 ^ 128) : Plain depth (.int z) := by
  have hle : 128 ≤ 1000 := by decide
  exact .int (h.trans_le (pow_le_pow_right₀ one_le_two hle))

lemma head_renderInt (z : ℤ) :
    ∃ c s, renderInt z = c :: s ∧ (c = '-' ∨ c.isDigit = true) := by
  unfold renderInt
  split
  · exact ⟨_, _, rfl, .inl rfl⟩
  · cases hdigits : Nat.toDigits 10 z.natAbs with
    | nil => exact absurd hdigits Nat.toDigits_ne_nil
    | cons c s =>
      refine ⟨c, s, rfl, .inr (Nat.isDigit_of_mem_toDigits (b := 10) (n := z.natAbs) (by decide)
        (by decide) ?_)⟩
      rw [hdigits]
      exact List.mem_cons_self

/-- A character that starts a value, and neither ends one nor is skipped. -/
def Starts (c : Char) : Prop := isWs c = false ∧ c ≠ ']' ∧ c ≠ '}'

instance decidableStarts (c : Char) : Decidable (Starts c) := inferInstanceAs (Decidable (_ ∧ _))

lemma starts_of_number (h : c = '-' ∨ c.isDigit = true) :
    Starts c ∧ c ≠ '[' ∧ c ≠ '{' ∧ c ≠ 'n' ∧ c ≠ 't' ∧ c ≠ 'f' ∧ c ≠ '"' := by
  rcases h with rfl | h
  · decide
  · have hne : ∀ d : Char, d.isDigit = false → c ≠ d := by
      rintro d hd rfl
      exact absurd (h.symm.trans hd) (by decide)
    have hws : isWs c = false := by
      simp [isWs, hne ' ' (by decide), hne '\n' (by decide), hne '\t' (by decide),
        hne '\r' (by decide)]
    exact ⟨⟨hws, hne _ (by decide), hne _ (by decide)⟩, hne _ (by decide), hne _ (by decide),
      hne _ (by decide), hne _ (by decide), hne _ (by decide), hne _ (by decide)⟩

/-- What stands at the start of a value. -/
lemma Plain.head {depth : ℕ} {t : Tree} (h : Plain depth t) :
    ∃ c s, render t = c :: s ∧ Starts c := by
  cases h with
  | null => exact ⟨_, _, rfl, by decide⟩
  | bool b => cases b <;> exact ⟨_, _, rfl, by decide⟩
  | int hz =>
    rename_i z
    obtain ⟨c, s, hrender, hc⟩ := head_renderInt z
    exact ⟨c, s, hrender, (starts_of_number hc).1⟩
  | str s => exact ⟨_, _, rfl, by decide⟩
  | arr h =>
    rename_i items
    cases items <;> exact ⟨_, _, rfl, by decide⟩
  | obj h =>
    rename_i fields
    cases fields <;> exact ⟨_, _, rfl, by decide⟩

lemma parseScalar_number (h : c = '-' ∨ c.isDigit = true) :
    parseScalar (c :: rest) = parseNumber (c :: rest) := by
  obtain ⟨-, -, -, hn, ht, hf, hq⟩ := starts_of_number h
  unfold parseScalar
  split
  · rename_i heq
    exact absurd (List.cons.inj heq).1 hn
  · rename_i heq
    exact absurd (List.cons.inj heq).1 ht
  · rename_i heq
    exact absurd (List.cons.inj heq).1 hf
  · rename_i heq
    exact absurd (List.cons.inj heq).1 hq
  · rfl

/-- A value that is no container. -/
lemma parseValue_scalar (hc : isWs c = false) (harr : c ≠ '[') (hobj : c ≠ '{') (depth : ℕ) :
    parseValue depth (c :: rest) = parseScalar (c :: rest) := by
  cases depth with
  | zero => rw [parseValue, skipWs_cons hc]
  | succ depth =>
    rw [parseValue, skipWs_cons hc]
    split
    · rename_i heq
      exact absurd (List.cons.inj heq).1 harr
    · rename_i heq
      exact absurd (List.cons.inj heq).1 hobj
    · rfl

section Containers

variable {value : List Char → Option (Tree × List Char)} {t : Tree} {items : List Tree}
  {fields : List (String × Tree)} {key : String}

/-- The reader of values reads this one back wherever it stands. -/
def ReadsBack (value : List Char → Option (Tree × List Char)) (t : Tree) : Prop :=
  (∃ c s, render t = c :: s ∧ Starts c) ∧
    ∀ rest, Delimited rest → value (render t ++ rest) = some (narrow t, rest)

lemma delimited_cons (h : c = ',' ∨ c = ']' ∨ c = '}') : Delimited (c :: rest) := fun d hd => by
  cases hd
  exact h

lemma delimited_renderItems (items : List Tree) (rest : List Char) :
    Delimited (renderItems items ++ ']' :: rest) := by
  cases items with
  | nil => exact delimited_cons (.inr (.inl rfl))
  | cons t items => exact delimited_cons (.inl rfl)

lemma delimited_renderFields (fields : List (String × Tree)) (rest : List Char) :
    Delimited (renderFields fields ++ '}' :: rest) := by
  cases fields with
  | nil => exact delimited_cons (.inr (.inr rfl))
  | cons field fields => exact delimited_cons (.inl rfl)

lemma length_le_renderItems (items : List Tree) : items.length ≤ (renderItems items).length := by
  induction items with
  | nil => exact Nat.zero_le _
  | cons t items ih =>
    simp only [renderItems, List.length_cons, List.length_append]
    omega

lemma length_le_renderFields (fields : List (String × Tree)) :
    fields.length ≤ (renderFields fields).length := by
  induction fields with
  | nil => exact Nat.zero_le _
  | cons field fields ih =>
    obtain ⟨key, t⟩ := field
    simp only [renderFields, List.length_cons, List.length_append]
    omega

lemma length_lt_renderItems (items : List Tree) (rest : List Char) :
    items.length < (renderItems items ++ ']' :: rest).length + 1 := by
  have hle := length_le_renderItems items
  rw [List.length_append]
  omega

lemma length_lt_renderFields (fields : List (String × Tree)) (rest : List Char) :
    fields.length < (renderFields fields ++ '}' :: rest).length + 1 := by
  have hle := length_le_renderFields fields
  rw [List.length_append]
  omega

lemma parseItems_render (h : ∀ t ∈ items, ReadsBack value t) (rest : List Char) {fuel : ℕ}
    (hfuel : items.length < fuel) :
    parseItems value fuel (renderItems items ++ ']' :: rest) = some (narrowItems items, rest) := by
  induction items generalizing fuel with
  | nil =>
    obtain ⟨fuel, rfl⟩ := Nat.exists_eq_succ_of_ne_zero (by omega : fuel ≠ 0)
    rfl
  | cons t items ih =>
    rw [List.length_cons] at hfuel
    obtain ⟨fuel, rfl⟩ := Nat.exists_eq_succ_of_ne_zero (by omega : fuel ≠ 0)
    have hvalue := (h t List.mem_cons_self).2 _ (delimited_renderItems items rest)
    have hitems := ih (fun t ht => h t (List.mem_cons_of_mem _ ht)) (by omega : items.length < fuel)
    have hcomma : ∀ s, parseItems value (fuel + 1) (',' :: s) = (do
        let item ← value s
        let items ← parseItems value fuel item.2
        return (item.1 :: items.1, items.2)) := fun _ => rfl
    rw [renderItems, List.cons_append, List.append_assoc, hcomma, hvalue]
    simp only [Option.bind_eq_bind, Option.bind_some, hitems]
    rfl

lemma parseArr_render (h : ∀ t ∈ items, ReadsBack value t) (rest : List Char) :
    ∃ s, render (.arr items) = '[' :: s ∧
      parseArr value (s ++ rest) = some (.arr (narrowItems items), rest) := by
  cases items with
  | nil => exact ⟨_, rfl, rfl⟩
  | cons t items =>
    refine ⟨_, rfl, ?_⟩
    obtain ⟨⟨c, s, hrender, hws, hne, -⟩, hvalue⟩ := h t List.mem_cons_self
    have hvalue := hvalue _ (delimited_renderItems items rest)
    have hitems := parseItems_render (fun t ht => h t (List.mem_cons_of_mem _ ht)) rest
      (length_lt_renderItems items rest)
    simp only [List.append_assoc, List.cons_append, List.nil_append]
    rw [hrender, List.cons_append] at hvalue ⊢
    rw [parseArr, skipWs_cons hws]
    split
    · rename_i heq
      exact absurd (List.cons.inj heq).1 hne
    · simp only [hvalue, Option.bind_eq_bind, Option.bind_some, hitems]
      rfl

lemma parseField_render (key : String) (h : ReadsBack value t) (hrest : Delimited rest) :
    parseField value (renderStr key ++ ':' :: (render t ++ rest)) =
      some ((key, narrow t), rest) := by
  have hquote : ∀ s, skipWs ('"' :: s) = '"' :: s := fun _ => rfl
  have hcolon : ∀ s, skipWs (':' :: s) = ':' :: s := fun _ => rfl
  rw [renderStr, List.cons_append, List.append_assoc, List.singleton_append]
  simp only [parseField, hquote, parseStr_render, Option.bind_eq_bind, Option.bind_some, hcolon,
    h.2 _ hrest]
  rfl

lemma parseFields_render (h : ∀ field ∈ fields, ReadsBack value field.2) (rest : List Char)
    {fuel : ℕ} (hfuel : fields.length < fuel) :
    parseFields value fuel (renderFields fields ++ '}' :: rest) =
      some (narrowFields fields, rest) := by
  induction fields generalizing fuel with
  | nil =>
    obtain ⟨fuel, rfl⟩ := Nat.exists_eq_succ_of_ne_zero (by omega : fuel ≠ 0)
    rfl
  | cons field fields ih =>
    obtain ⟨key, t⟩ := field
    rw [List.length_cons] at hfuel
    obtain ⟨fuel, rfl⟩ := Nat.exists_eq_succ_of_ne_zero (by omega : fuel ≠ 0)
    have hfield := parseField_render key (h (key, t) List.mem_cons_self)
      (delimited_renderFields fields rest)
    have hfields := ih (fun field hf => h field (List.mem_cons_of_mem _ hf))
      (by omega : fields.length < fuel)
    have hcomma : ∀ s, parseFields value (fuel + 1) (',' :: s) = (do
        let field ← parseField value s
        let fields ← parseFields value fuel field.2
        return (field.1 :: fields.1, fields.2)) := fun _ => rfl
    simp only [renderFields, List.cons_append, List.append_assoc]
    rw [hcomma, hfield]
    simp only [Option.bind_eq_bind, Option.bind_some, hfields]
    rfl

lemma parseObj_render (h : ∀ field ∈ fields, ReadsBack value field.2) (rest : List Char) :
    ∃ s, render (.obj fields) = '{' :: s ∧
      parseObj value (s ++ rest) = some (.obj (narrowFields fields), rest) := by
  cases fields with
  | nil => exact ⟨_, rfl, rfl⟩
  | cons field fields =>
    obtain ⟨key, t⟩ := field
    refine ⟨_, rfl, ?_⟩
    have hfield := parseField_render key (h (key, t) List.mem_cons_self)
      (delimited_renderFields fields rest)
    have hfields := parseFields_render (fun field hf => h field (List.mem_cons_of_mem _ hf)) rest
      (length_lt_renderFields fields rest)
    have hquote : ∀ s, parseObj value ('"' :: s) = (do
        let field ← parseField value ('"' :: s)
        let fields ← parseFields value (field.2.length + 1) field.2
        return (.obj (field.1 :: fields.1), fields.2)) := fun _ => rfl
    simp only [List.append_assoc, List.cons_append, List.nil_append]
    simp only [renderStr, List.append_assoc, List.cons_append, List.nil_append] at hfield ⊢
    rw [hquote, hfield]
    simp only [Option.bind_eq_bind, Option.bind_some, hfields]
    rfl

end Containers

/-- What is written is read back, with its wide integers as floats. -/
theorem parseValue_render {depth : ℕ} {t : Tree} (h : Plain depth t) (hrest : Delimited rest) :
    parseValue depth (render t ++ rest) = some (narrow t, rest) := by
  induction h generalizing rest with
  | null => exact (parseValue_scalar rfl (by decide) (by decide) _).trans rfl
  | bool b => cases b <;> exact (parseValue_scalar rfl (by decide) (by decide) _).trans rfl
  | str s =>
    have hquote : ∀ s, parseScalar ('"' :: s) =
        (parseStr s).map (Prod.map .str id) := fun _ => rfl
    rw [render, renderStr, List.cons_append, parseValue_scalar rfl (by decide) (by decide), hquote,
      List.append_assoc, List.singleton_append, parseStr_render]
    rfl
  | int hz =>
    rename_i depth z
    obtain ⟨c, s, hrender, hc⟩ := head_renderInt z
    obtain ⟨⟨hws, -, -⟩, harr, hobj, -⟩ := starts_of_number hc
    have hnumber := parseNumber_render hz hrest
    rw [render, narrow]
    rw [hrender, List.cons_append] at hnumber ⊢
    rw [parseValue_scalar hws harr hobj, parseScalar_number hc, hnumber]
  | arr h ih =>
    rename_i depth items
    have hitems : ∀ t ∈ items, ReadsBack (parseValue depth) t := fun t ht =>
      ⟨(h t ht).head, fun rest hrest => ih t ht hrest⟩
    obtain ⟨s, hrender, hparse⟩ := parseArr_render hitems rest
    rw [hrender]
    exact hparse
  | obj h ih =>
    rename_i depth fields
    have hfields : ∀ field ∈ fields, ReadsBack (parseValue depth) field.2 := fun field hf =>
      ⟨(h field hf).head, fun rest hrest => ih field hf hrest⟩
    obtain ⟨s, hrender, hparse⟩ := parseObj_render hfields rest
    rw [hrender]
    exact hparse

/-- A whole text is read back. -/
theorem parse_render {depth : ℕ} {t : Tree} (h : Plain depth t) :
    parse depth (render t) = some (narrow t) := by
  have hend : Delimited [] := fun c hc => by cases hc
  have hvalue := parseValue_render h hend
  rw [List.append_nil] at hvalue
  rw [parse, hvalue]
  rfl

/-! ### One line -/

/-- A character that may stand in a line: no control character. -/
def Printed (c : Char) : Prop := 0x20 ≤ c.toNat

instance decidablePrinted (c : Char) : Decidable (Printed c) := Nat.decLe 0x20 c.toNat

lemma printed_of_all {cs : List Char} (h : (cs.all fun c => decide (Printed c)) = true) :
    ∀ c ∈ cs, Printed c := by
  simpa only [List.all_eq_true, decide_eq_true_eq] using h

lemma printed_hexDigit {n : ℕ} (h : n < 16) : Printed (hexDigit n) := by
  interval_cases n <;> decide

lemma printed_escape (c : Char) : ∀ d ∈ escape c, Printed d := by
  unfold escape
  split_ifs with h₁ h₂ h₃ h₄ h₅ h₆ h₇ h₈
  · exact printed_of_all (by decide)
  · exact printed_of_all (by decide)
  · exact printed_of_all (by decide)
  · exact printed_of_all (by decide)
  · exact printed_of_all (by decide)
  · exact printed_of_all (by decide)
  · exact printed_of_all (by decide)
  · have hhigh : Printed (hexDigit (c.toNat / 16)) := printed_hexDigit (by omega)
    have hlow : Printed (hexDigit (c.toNat % 16)) := printed_hexDigit (by omega)
    have hfixed : Printed '\\' ∧ Printed 'u' ∧ Printed '0' := by decide
    simpa only [List.forall_mem_cons, hhigh, hlow, hfixed, true_and] using
      List.forall_mem_nil Printed
  · rw [List.forall_mem_singleton]
    exact not_lt.mp h₈

lemma printed_renderStr (s : String) : ∀ c ∈ renderStr s, Printed c := by
  have hchars : ∀ c ∈ s.toList.flatMap escape, Printed c := by
    intro c hc
    obtain ⟨d, -, hc⟩ := List.mem_flatMap.mp hc
    exact printed_escape d c hc
  intro c hc
  rcases List.mem_cons.mp hc with rfl | hc
  · decide
  rcases List.mem_append.mp hc with hc | hc
  · exact hchars c hc
  · rw [List.mem_singleton.mp hc]
    decide

lemma printed_renderInt (z : ℤ) : ∀ c ∈ renderInt z, Printed c := by
  have hdigits : ∀ c ∈ Nat.toDigits 10 z.natAbs, Printed c := by
    intro c hc
    have hdigit := Nat.isDigit_of_mem_toDigits (by decide) (by decide) hc
    rw [Char.isDigit, Bool.and_eq_true, decide_eq_true_eq] at hdigit
    exact le_trans (by decide) (UInt32.le_iff_toNat_le.mp hdigit.1)
  intro c hc
  unfold renderInt at hc
  split at hc
  · rcases List.mem_cons.mp hc with rfl | hc
    · decide
    · exact hdigits c hc
  · exact hdigits c hc

lemma printed_renderItems {items : List Tree} (h : ∀ t ∈ items, ∀ c ∈ render t, Printed c) :
    ∀ c ∈ renderItems items, Printed c := by
  induction items with
  | nil => exact fun c hc => absurd hc List.not_mem_nil
  | cons t items ih =>
    intro c hc
    simp only [renderItems, List.mem_cons, List.mem_append] at hc
    rcases hc with rfl | hc | hc
    · decide
    · exact h t List.mem_cons_self c hc
    · exact ih (fun t ht => h t (List.mem_cons_of_mem _ ht)) c hc

lemma printed_renderFields {fields : List (String × Tree)}
    (h : ∀ field ∈ fields, ∀ c ∈ render field.2, Printed c) :
    ∀ c ∈ renderFields fields, Printed c := by
  induction fields with
  | nil => exact fun c hc => absurd hc List.not_mem_nil
  | cons field fields ih =>
    obtain ⟨key, t⟩ := field
    intro c hc
    simp only [renderFields, List.mem_cons, List.mem_append] at hc
    rcases hc with rfl | (hc | rfl | hc) | hc
    · decide
    · exact printed_renderStr key c hc
    · decide
    · exact h (key, t) List.mem_cons_self c hc
    · exact ih (fun field hf => h field (List.mem_cons_of_mem _ hf)) c hc

/-- A written value stands in one line. -/
theorem Plain.printed {depth : ℕ} {t : Tree} (h : Plain depth t) : ∀ c ∈ render t, Printed c := by
  induction h with
  | null => exact printed_of_all (by decide)
  | bool b => cases b <;> exact printed_of_all (by decide)
  | int hz => exact printed_renderInt _
  | str s => exact printed_renderStr s
  | arr h ih =>
    rename_i items
    cases items with
    | nil => exact printed_of_all (by decide)
    | cons t items =>
      have hitems := printed_renderItems fun t ht => ih t (List.mem_cons_of_mem _ ht)
      intro c hc
      simp only [render, List.mem_cons, List.mem_append, List.not_mem_nil, or_false] at hc
      rcases hc with rfl | (hc | hc) | rfl
      · decide
      · exact ih t List.mem_cons_self c hc
      · exact hitems c hc
      · decide
  | obj h ih =>
    rename_i fields
    cases fields with
    | nil => exact printed_of_all (by decide)
    | cons field fields =>
      obtain ⟨key, t⟩ := field
      have hfields := printed_renderFields fun field hf => ih field (List.mem_cons_of_mem _ hf)
      intro c hc
      simp only [render, List.mem_cons, List.mem_append, List.not_mem_nil, or_false] at hc
      rcases hc with rfl | ((hc | rfl | hc) | hc) | rfl
      · decide
      · exact printed_renderStr key c hc
      · decide
      · exact ih (key, t) List.mem_cons_self c hc
      · exact hfields c hc
      · decide

end JsonText
