import Suwappu.Near.ArbiterHttp.Basic
import Suwappu.Near.ArbiterV3.PaysOnce
import Suwappu.Near.JsonSerde

/-!
# Accepted terms can be evaluated

The contract validates the terms, the enclave the input made of them and read back from its text.
Both look at the same fields, which are texts, and at the checks, whose values are scalars.
-/

namespace Suwappu.Near.ArbiterHttp

open Checked Json Terms

variable {serde : Serde} {o o' : List (String × Json)} {v v' : Json} {key : String}

/-! ### What the validator reads -/

/-- A text field, which may be missing. -/
def TextAt (o : List (String × Json)) (key default s : String) : Prop :=
  o.lookup key = some (.str s) ∨ o.lookup key = none ∧ s = default

def ListAt (o : List (String × Json)) (key : String) (items : List Json) : Prop :=
  o.lookup key = some (.arr items) ∨ o.lookup key = none ∧ items = []

lemma optionalStr_ok_iff {default s : String} :
    optionalStr o key default = .ok s ↔ TextAt o key default s := by
  unfold optionalStr TextAt
  split
  · rename_i h
    simp [h, eq_comm]
  · rename_i h
    simp [h]
  · rename_i h
    simp_all

lemma optionalArr_ok_iff {items : List Json} :
    optionalArr o key = .ok items ↔ ListAt o key items := by
  unfold optionalArr ListAt
  split
  · rename_i h
    simp [h, eq_comm]
  · rename_i h
    simp [h]
  · rename_i h
    simp_all

/-- What the terms ask for: a request, and the checks on its response. -/
structure Predicates where
  url : String
  method : String
  body : String
  checks : List Json
  hash : String

/-- The fields of an object that ask for `q`. -/
structure Reads (o : List (String × Json)) (q : Predicates) : Prop where
  keys : ∀ key ∈ o.map Prod.fst, key ∈ ALLOWED_KEYS
  context : o.lookup "context" = some (.str RUBRIC)
  url : o.lookup "url" = some (.str q.url)
  method : TextAt o "method" "GET" q.method
  body : TextAt o "body" "" q.body
  checks : ListAt o "checks" q.checks
  hash : TextAt o "expect_sha256" "" q.hash

/-- What the validator accepts. -/
structure Predicates.Accepted (serde : Serde) (q : Predicates) : Prop where
  url : validUrl q.url = true
  body : q.method = "GET" ∧ q.body.isEmpty = true ∨ q.method = "POST" ∧
    ¬ (q.body.isEmpty || q.body.utf8ByteSize > MAX_POST_BODY ||
      (serde.fromStr q.body).isNone) = true
  count : q.checks.length ≤ MAX_CHECKS
  checks : ∀ c ∈ q.checks, validCheck c = true
  hash : (q.hash.isEmpty || isSha256 q.hash) = true
  some : ¬ (q.checks.isEmpty = true ∧ q.hash.isEmpty = true)

lemma asStr_eq_some {s : String} : (o.lookup key).bind Json.asStr = some s ↔
    o.lookup key = some (.str s) := by
  cases o.lookup key with
  | none => simp
  | some v => cases v <;> simp [Json.asStr]

/-- The end of the validator, which every method runs into. -/
lemma checks_hash_ok_iff {u : Unit} : (do
    let checks ← optionalArr o "checks"
    guard (checks.length ≤ MAX_CHECKS ∧ checks.all validCheck) INVALID
    let hash ← optionalStr o "expect_sha256" ""
    guard (hash.isEmpty || isSha256 hash) INVALID
    guard (¬ (checks.isEmpty ∧ hash.isEmpty)) INVALID : Except String Unit) = .ok u ↔
    ∃ checks hash, ListAt o "checks" checks ∧ TextAt o "expect_sha256" "" hash ∧
      checks.length ≤ MAX_CHECKS ∧ (∀ c ∈ checks, validCheck c = true) ∧
      (hash.isEmpty || isSha256 hash) = true ∧ ¬ (checks.isEmpty = true ∧ hash.isEmpty = true) := by
  simp only [bind_ok_iff, guard_ok_iff, optionalStr_ok_iff, optionalArr_ok_iff, List.all_eq_true]
  constructor
  · rintro ⟨checks, hchecks, -, ⟨hcount, hall⟩, hash, hhash, -, hhex, hsome⟩
    exact ⟨checks, hash, hchecks, hhash, hcount, hall, hhex, hsome⟩
  · rintro ⟨checks, hash, hchecks, hhash, hcount, hall, hhex, hsome⟩
    exact ⟨checks, hchecks, (), ⟨hcount, hall⟩, hash, hhash, (), hhex, hsome⟩

lemma keys_allowed_iff : (¬ (o.any fun kv => !ALLOWED_KEYS.contains kv.1) = true) ↔
    ∀ key ∈ o.map Prod.fst, key ∈ ALLOWED_KEYS := by
  simp

/-- What the validator establishes. -/
lemma validateValue_ok {u : Unit} (h : validateValue serde v = .ok u) :
    ∃ o q, v = .obj o ∧ Reads o q ∧ q.Accepted serde := by
  cases v with
  | obj o =>
    simp only [validateValue, Json.asObject, ok_bind, bind_ok_iff, guard_ok_iff,
      asStr_eq_some] at h
    obtain ⟨-, hkeys, -, hcontext, h⟩ := h
    cases hurl : (o.lookup "url").bind Json.asStr with
    | none =>
      rw [hurl] at h
      cases h
    | some url =>
      rw [hurl] at h
      simp only [bind_ok_iff, guard_ok_iff, optionalStr_ok_iff] at h
      obtain ⟨-, hvalid, method, hmethod, body, hbody, h⟩ := h
      have hreads : ∀ checks hash, ListAt o "checks" checks → TextAt o "expect_sha256" "" hash →
          Reads o ⟨url, method, body, checks, hash⟩ := fun checks hash hchecks hhash =>
        ⟨keys_allowed_iff.mp hkeys, hcontext, asStr_eq_some.mp hurl, hmethod, hbody, hchecks, hhash⟩
      split_ifs at h with hget hpost
      · obtain ⟨_, hempty, h⟩ := bind_ok_iff.mp h
        obtain ⟨checks, hash, hchecks, hhash, hcount, hall, hhex, hsome⟩ := checks_hash_ok_iff.mp h
        exact ⟨o, _, rfl, hreads checks hash hchecks hhash, hvalid,
          .inl ⟨hget, guard_ok_iff.mp hempty⟩, hcount, hall, hhex, hsome⟩
      · obtain ⟨_, hlong, h⟩ := bind_ok_iff.mp h
        obtain ⟨checks, hash, hchecks, hhash, hcount, hall, hhex, hsome⟩ := checks_hash_ok_iff.mp h
        exact ⟨o, _, rfl, hreads checks hash hchecks hhash, hvalid,
          .inr ⟨hpost, guard_ok_iff.mp hlong⟩, hcount, hall, hhex, hsome⟩
      · cases h
  | _ => cases h

/-- What is enough for the validator. -/
lemma validateValue_of_accepted {q : Predicates} (hreads : Reads o q) (hq : q.Accepted serde) :
    validateValue serde (.obj o) = .ok () := by
  have htail := (checks_hash_ok_iff (u := ())).mpr
    ⟨q.checks, q.hash, hreads.checks, hreads.hash, hq.count, hq.checks, hq.hash, hq.some⟩
  simp only [validateValue, Json.asObject, ok_bind, asStr_eq_some.mpr hreads.context,
    asStr_eq_some.mpr hreads.url, guard_of_true (keys_allowed_iff.mpr hreads.keys),
    guard_of_true hq.url, guard_of_true, optionalStr_ok_iff.mpr hreads.method,
    optionalStr_ok_iff.mpr hreads.body]
  rcases hq.body with ⟨hget, hempty⟩ | ⟨hpost, hlong⟩
  · rw [if_pos hget, guard_of_true hempty]
    exact htail
  · have hne : q.method ≠ "GET" := by simp [hpost]
    rw [if_neg hne, if_pos hpost, guard_of_true hlong]
    exact htail

/-! ### Checks -/

/-- What an operand can be. -/
inductive Operand : Json → Prop
  | str (s : String) : Operand (.str s)
  | bool (b : Bool) : Operand (.bool b)
  | posInt (n : Fin (2 ^ 64)) : Operand (.num (.posInt n))
  | negInt (n : Fin (2 ^ 63)) : Operand (.num (.negInt n))

lemma operand_of_num {n : Number} (h : (numInt n).isSome = true) : Operand (.num n) := by
  cases n with
  | posInt n => exact .posInt n
  | negInt n => exact .negInt n
  | float text => cases h

lemma operand_of_valid {op : String} (h : validOperand op (some v) = true) : Operand v := by
  unfold validOperand at h
  split_ifs at h with hexists heq hint hcontains
  · cases h
  · cases v with
    | str s => exact .str s
    | bool b => exact .bool b
    | num n => exact operand_of_num h
    | _ => cases h
  · cases v with
    | str s => exact .str s
    | num n => exact operand_of_num h
    | _ => cases h
  · cases v with
    | str s => exact .str s
    | _ => cases h

lemma Operand.integral {depth : ℕ} (h : Operand v) : v.Integral depth := by
  cases h with
  | str s => exact .str s
  | bool b => exact .bool b
  | posInt n => exact .posInt n
  | negInt n => exact .negInt n

lemma Operand.eq_of_same (h : Operand v) (hsame : v.Same v') : v' = v := by
  cases h <;> cases hsame <;> rfl

/-- The fields of a check that is accepted. -/
structure ReadsCheck (o : List (String × Json)) (path op : String) : Prop where
  keys : ∀ key ∈ o.map Prod.fst, key = "path" ∨ key = "op" ∨ key = "value"
  path_eq : o.lookup "path" = some (.str path)
  path_valid : validPath path = true
  op_eq : o.lookup "op" = some (.str op)
  value_valid : validOperand op (o.lookup "value") = true

lemma check_keys_iff :
    (¬ (o.any fun kv => kv.1 ≠ "path" && kv.1 ≠ "op" && kv.1 ≠ "value") = true) ↔
      ∀ key ∈ o.map Prod.fst, key = "path" ∨ key = "op" ∨ key = "value" := by
  simp only [List.any_eq_true, Bool.and_eq_true, decide_eq_true_eq, not_exists, not_and,
    List.forall_mem_map]
  refine forall₂_congr fun field _ => ?_
  tauto

lemma validCheck_iff : validCheck v = true ↔ ∃ o path op, v = .obj o ∧ ReadsCheck o path op := by
  constructor
  · intro h
    cases v with
    | obj o =>
      simp only [validCheck, Json.asObject] at h
      split_ifs at h with hkeys
      cases hpath : (o.lookup "path").bind Json.asStr with
      | none =>
        rw [hpath] at h
        cases h
      | some path =>
        rw [hpath] at h
        dsimp only at h
        split_ifs at h with hvalid
        cases hop : (o.lookup "op").bind Json.asStr with
        | none =>
          rw [hop] at h
          cases h
        | some op =>
          rw [hop] at h
          exact ⟨o, path, op, rfl, check_keys_iff.mp hkeys, asStr_eq_some.mp hpath,
            by simpa using hvalid, asStr_eq_some.mp hop, h⟩
    | _ => cases h
  · rintro ⟨o, path, op, rfl, h⟩
    simp [validCheck, Json.asObject, if_neg (check_keys_iff.mpr h.keys), h.path_eq, h.op_eq,
      h.path_valid, h.value_valid, Json.asStr]

lemma ReadsCheck.same {path op : String} (h : ReadsCheck o path op)
    (hsame : Same (.obj o) (.obj o')) : ReadsCheck o' path op where
  keys _ hkey := h.keys _ (hsame.mem_keys hkey)
  path_eq := hsame.lookup_str h.path_eq
  path_valid := h.path_valid
  op_eq := hsame.lookup_str h.op_eq
  value_valid := by
    have hvalue := h.value_valid
    cases hv : o.lookup "value" with
    | none => rwa [hsame.lookup_none hv, ← hv]
    | some v =>
      obtain ⟨v', hv', hvv'⟩ := hsame.lookup_some hv
      rw [hv] at hvalue
      rwa [hv', (operand_of_valid hvalue).eq_of_same hvv']

/-- An accepted check is accepted in any order of fields. -/
lemma validCheck_same (h : validCheck v = true) (hsame : v.Same v') : validCheck v' = true := by
  obtain ⟨o, path, op, rfl, hreads⟩ := validCheck_iff.mp h
  cases hsame with
  | obj hfields => exact validCheck_iff.mpr ⟨_, path, op, rfl, hreads.same (.obj hfields)⟩

lemma integral_of_validCheck {depth : ℕ} (h : validCheck v = true) (hdistinct : v.Distinct) :
    v.Integral (depth + 1) := by
  obtain ⟨o, path, op, rfl, hreads⟩ := validCheck_iff.mp h
  cases hdistinct with
  | obj hnodup hfields =>
    refine .obj ?_
    rintro ⟨key, v⟩ hmem
    have hlookup := lookup_of_mem hnodup hmem
    rcases hreads.keys key (mem_keys_of_lookup hlookup) with rfl | rfl | rfl
    · rw [hreads.path_eq] at hlookup
      cases hlookup
      exact .str _
    · rw [hreads.op_eq] at hlookup
      cases hlookup
      exact .str _
    · have hvalue := hreads.value_valid
      rw [hlookup] at hvalue
      exact (operand_of_valid hvalue).integral

lemma check_fromValue (h : validCheck v = true) : ∃ c, Check.fromValue v = some c := by
  obtain ⟨o, path, op, rfl, hreads⟩ := validCheck_iff.mp h
  have hvalue : ∃ value, defaulted (.obj o) "value" readOption none = some value := by
    unfold defaulted Json.get? readOption
    split
    · exact ⟨_, rfl⟩
    · split <;> exact ⟨_, rfl⟩
  obtain ⟨value, hvalue⟩ := hvalue
  refine ⟨⟨path, op, value⟩, ?_⟩
  simp [Check.fromValue, Json.asObject, required, Json.get?, hreads.path_eq, hreads.op_eq,
    Json.asStr, hvalue]

/-! ### The input -/

lemma Reads.same {q : Predicates} (h : Reads o q) (hsame : Same (.obj o) (.obj o')) :
    ∃ checks', List.Forall₂ Same q.checks checks' ∧ Reads o' { q with checks := checks' } := by
  have htext : ∀ {key default s}, TextAt o key default s → TextAt o' key default s := by
    rintro key default s (hstr | ⟨hnone, rfl⟩)
    · exact .inl (hsame.lookup_str hstr)
    · exact .inr ⟨hsame.lookup_none hnone, rfl⟩
  have hreads : ∀ checks', ListAt o' "checks" checks' → Reads o' { q with checks := checks' } :=
    fun checks' hchecks => {
      keys := fun key hkey => h.keys key (hsame.mem_keys hkey)
      context := hsame.lookup_str h.context
      url := hsame.lookup_str h.url
      method := htext h.method
      body := htext h.body
      checks := hchecks
      hash := htext h.hash }
  rcases h.checks with harr | ⟨hnone, hnil⟩
  · obtain ⟨v', hv', hvv'⟩ := hsame.lookup_some harr
    cases hvv' with
    | arr hitems => exact ⟨_, hitems, hreads _ (.inl hv')⟩
  · refine ⟨[], ?_, hreads [] (.inr ⟨hsame.lookup_none hnone, rfl⟩)⟩
    rw [hnil]
    exact .nil

lemma validCheck_all_same {checks checks' : List Json} (h : ∀ c ∈ checks, validCheck c = true)
    (hsame : List.Forall₂ Same checks checks') : ∀ c ∈ checks', validCheck c = true := by
  induction hsame with
  | nil => exact h
  | cons hcc' _ ih =>
    rw [List.forall_mem_cons] at h ⊢
    exact ⟨validCheck_same h.1 hcc', ih h.2⟩

lemma Predicates.Accepted.same {q : Predicates} (h : q.Accepted serde) {checks' : List Json}
    (hsame : List.Forall₂ Same q.checks checks') :
    Predicates.Accepted serde { q with checks := checks' } where
  url := h.url
  body := h.body
  count := hsame.length_eq ▸ h.count
  checks := validCheck_all_same h.checks hsame
  hash := h.hash
  some := by
    have hsome := h.some
    rw [List.isEmpty_iff_length_eq_zero] at hsome ⊢
    rwa [← hsame.length_eq]

/-- A value that is accepted is accepted in any order of fields. -/
theorem validateValue_same (h : validateValue serde v = .ok ()) (hsame : v.Same v') :
    validateValue serde v' = .ok () := by
  obtain ⟨o, q, rfl, hreads, hq⟩ := validateValue_ok h
  cases hsame with
  | obj hfields =>
    obtain ⟨checks', hchecks, hreads'⟩ := hreads.same (.obj hfields)
    exact validateValue_of_accepted hreads' (hq.same hchecks)

lemma defaulted_text {default s : String} (h : TextAt o key default s) :
    defaulted (.obj o) key Json.asStr default = some s := by
  rcases h with hstr | ⟨hnone, rfl⟩
  · simp [defaulted, Json.get?, hstr, Json.asStr]
  · simp [defaulted, Json.get?, hnone]

lemma mapM_fromValue {checks : List Json} (h : ∀ c ∈ checks, validCheck c = true) :
    ∃ cs, checks.mapM Check.fromValue = some cs := by
  induction checks with
  | nil => exact ⟨[], rfl⟩
  | cons c checks ih =>
    rw [List.forall_mem_cons] at h
    obtain ⟨d, hd⟩ := check_fromValue h.1
    obtain ⟨ds, hds⟩ := ih h.2
    exact ⟨d :: ds, by simp [List.mapM_cons, hd, hds]⟩

/-- An accepted object with an escrow id is deserialised. -/
lemma input_fromValue {q : Predicates} (hreads : Reads o q) (hq : q.Accepted serde)
    {n : Fin (2 ^ 64)}
    (hid : o.lookup "escrow_id" = some (.num (.posInt n))) :
    ∃ input, Input.fromValue (.obj o) = some input := by
  have hchecks :
      ∃ checks, defaulted (.obj o) "checks" (readVec Check.fromValue) [] = some checks := by
    rcases hreads.checks with harr | ⟨hnone, -⟩
    · obtain ⟨checks, hmap⟩ := mapM_fromValue hq.checks
      exact ⟨checks, by simp [defaulted, Json.get?, harr, readVec, hmap]⟩
    · exact ⟨[], by simp [defaulted, Json.get?, hnone]⟩
  obtain ⟨checks, hchecks⟩ := hchecks
  refine ⟨⟨RUBRIC, n, q.url, q.method, q.body, checks, q.hash⟩, ?_⟩
  simp [Input.fromValue, Json.asObject, required, Json.get?, hreads.context, hreads.url, hid,
    Json.asStr, readU64, hchecks, defaultMethod, defaulted_text hreads.method,
    defaulted_text hreads.body, defaulted_text hreads.hash]

/-! ### The terms with the id of the escrow -/

/-- What the contract makes of the terms `o`. -/
def withId (o : List (String × Json)) (id : ℕ) : List (String × Json) :=
  ("escrow_id", jsonU64 id) :: o.filter fun kv => kv.1 ≠ "deadline_unix" ∧ kv.1 ≠ "escrow_id"

lemma lookup_withId {id : ℕ} (h : key ≠ "escrow_id") (h' : key ≠ "deadline_unix") :
    (withId o id).lookup key = o.lookup key := by
  rw [withId, lookup_cons_of_ne h,
    lookup_filter fun key => key ≠ "deadline_unix" ∧ key ≠ "escrow_id", if_pos ⟨h', h⟩]

lemma Reads.withId {q : Predicates} (h : Reads o q) (id : ℕ) : Reads (withId o id) q where
  keys key hkey := by
    rw [ArbiterHttp.withId, List.map_cons, List.mem_cons] at hkey
    rcases hkey with rfl | hkey
    · exact (by decide : "escrow_id" ∈ ALLOWED_KEYS)
    · obtain ⟨field, hfield, rfl⟩ := List.mem_map.mp hkey
      exact h.keys _ (List.mem_map.mpr ⟨field, List.mem_of_mem_filter hfield, rfl⟩)
  context := (lookup_withId (by decide) (by decide)).trans h.context
  url := (lookup_withId (by decide) (by decide)).trans h.url
  method := by
    rw [TextAt, lookup_withId (by decide) (by decide)]
    exact h.method
  body := by
    rw [TextAt, lookup_withId (by decide) (by decide)]
    exact h.body
  checks := by
    rw [ListAt, lookup_withId (by decide) (by decide)]
    exact h.checks
  hash := by
    rw [TextAt, lookup_withId (by decide) (by decide)]
    exact h.hash

/-- What stands in the terms besides the deadline and the id. -/
lemma Reads.value {q : Predicates} (h : Reads o q) (hlookup : o.lookup key = some v)
    (hdeadline : key ≠ "deadline_unix") (hid : key ≠ "escrow_id") :
    (∃ s, v = .str s) ∨ v = .arr q.checks := by
  have htext : ∀ {default s}, TextAt o key default s → ∃ s, v = .str s := by
    rintro default s (hstr | ⟨hnone, -⟩)
    · exact ⟨s, Option.some.inj (hlookup.symm.trans hstr)⟩
    · rw [hnone] at hlookup
      cases hlookup
  have hkey := h.keys key (mem_keys_of_lookup hlookup)
  simp only [ALLOWED_KEYS, List.mem_cons, List.not_mem_nil, or_false] at hkey
  rcases hkey with rfl | rfl | rfl | rfl | rfl | rfl | rfl | rfl
  · exact .inl ⟨_, Option.some.inj (hlookup.symm.trans h.context)⟩
  · exact absurd rfl hid
  · exact .inl ⟨_, Option.some.inj (hlookup.symm.trans h.url)⟩
  · exact .inl (htext h.method)
  · exact .inl (htext h.body)
  · rcases h.checks with harr | ⟨hnone, -⟩
    · exact .inr (Option.some.inj (hlookup.symm.trans harr))
    · rw [hnone] at hlookup
      cases hlookup
  · exact .inl (htext h.hash)
  · exact absurd rfl hdeadline

lemma integral_withId {q : Predicates} (h : Reads o q) (hq : q.Accepted serde)
    (hdistinct : Distinct (.obj o)) (id : ℕ) : Integral 127 (.obj (withId o id)) := by
  cases hdistinct with
  | obj hnodup hfields =>
    refine .obj ?_
    rw [withId, List.forall_mem_cons]
    refine ⟨.posInt _, ?_⟩
    rintro ⟨key, v⟩ hmem
    obtain ⟨hmem, hkey⟩ := List.mem_filter.mp hmem
    obtain ⟨hdeadline, hid⟩ := of_decide_eq_true hkey
    rcases h.value (lookup_of_mem hnodup hmem) hdeadline hid with ⟨s, rfl⟩ | rfl
    · exact .str s
    · refine .arr fun c hc => ?_
      cases hfields _ hmem with
      | arr hitems => exact integral_of_validCheck (hq.checks c hc) (hitems c hc)

lemma distinct_withId (hdistinct : Distinct (.obj o)) (id : ℕ) : Distinct (.obj (withId o id)) := by
  cases hdistinct with
  | obj hnodup hfields =>
    refine .obj ?_ ?_
    · rw [withId, List.map_cons, List.nodup_cons]
      refine ⟨fun hmem => ?_, hnodup.sublist (List.filter_sublist.map _)⟩
      obtain ⟨field, hfield, heq⟩ := List.mem_map.mp hmem
      exact (of_decide_eq_true (List.mem_filter.mp hfield).2).2 heq
    · rw [withId, List.forall_mem_cons]
      exact ⟨.num _, fun field hfield => hfields field (List.mem_of_mem_filter hfield)⟩

/-! ### Answers -/

/-- The answers that do not come from the endpoint. -/
def REFUSALS : List String := ["bad_input_json", INVALID, "unknown_context"]

lemma notMem_refusals {c : Char} {reason : String} (h : reason.toList.head? = some c)
    (hc : c ≠ 'b' ∧ c ≠ 'i' ∧ c ≠ 'u') : reason ∉ REFUSALS := by
  intro hmem
  simp only [REFUSALS, List.mem_cons, List.not_mem_nil, or_false] at hmem
  rcases hmem with rfl | rfl | rfl
  · exact hc.1 (Option.some.inj h).symm
  · exact hc.2.1 (Option.some.inj h).symm
  · exact hc.2.2 (Option.some.inj h).symm

lemma head_append {c : Char} {a : String} (h : a.toList.head? = some c) (b : String) :
    (a ++ b).toList.head? = some c := by
  rw [String.toList_append, List.head?_append, h]
  rfl

lemma evaluate_notMem_refusals (enclave : Enclave) (i : Input) (status : Fin (2 ^ 16))
    (body : List UInt8) : (evaluate enclave i status body).2 ∉ REFUSALS := by
  unfold evaluate
  split_ifs with hstatus hlong hhash hchecks
  · exact notMem_refusals (head_append (c := 'h') rfl _) (by decide)
  · decide
  · decide
  · decide
  · split
    · decide
    · split
      · exact notMem_refusals (head_append (c := 'c') rfl _) (by decide)
      · decide

/-- An input that is deserialised and valid is not refused. -/
lemma run_notMem_refusals {enclave : Enclave} {raw : String} {input : Input}
    (hraw : enclave.serde.fromStr raw = some v) (hinput : Input.fromValue v = some input)
    (hvalid : validateValue enclave.serde v = .ok ()) : (run enclave raw).reason ∉ REFUSALS := by
  simp only [run, hraw, Option.getD_some, hinput, hvalid]
  cases enclave.fetch input with
  | none => exact (by decide : "fetch_failed" ∉ REFUSALS)
  | some response =>
    obtain ⟨status, body⟩ := response
    exact evaluate_notMem_refusals enclave input status body

/-! ### The contract -/

open ArbiterV3

variable {host : Host} {c c' : ArbiterEscrow} {e : Escrow} {env : Env} {w w' : World} {id : ℕ}
  {toStr : Json → String}

/-- Terms of `http_json_v1` that the contract has validated. -/
def AcceptedTerms (serde : Serde) (terms : String) : Prop :=
  ∃ o, serde.fromStr terms = some (.obj o) ∧ validateValue serde (.obj o) = .ok ()

/-- The enclave deserialises and validates what it reads. -/
def Readable (serde : Serde) (raw : String) : Prop :=
  ∃ v input, serde.fromStr raw = some v ∧ Input.fromValue v = some input ∧
    validateValue serde v = .ok ()

lemma AcceptedTerms.readable (hserde : Faithful host.serde toStr) {terms : String}
    (h : AcceptedTerms host.serde terms) {t : Json} (ht : host.serde.fromStr terms = some t)
    {r : Rubric} (hr : r.name = RUBRIC) (id : ℕ) :
    ∃ v, inputData r t id = .ok v ∧ Readable host.serde (toStr v) := by
  obtain ⟨o, ho, hvalid⟩ := h
  obtain ⟨_, q, heq, hreads, hq⟩ := validateValue_ok hvalid
  cases heq
  cases ht.symm.trans ho
  have hdistinct := hserde.distinct _ _ ho
  obtain ⟨v', hv', hsame⟩ := hserde.read_back _ (distinct_withId hdistinct id)
    (integral_withId hreads hq hdistinct id)
  have hne : r.name ≠ RUBRIC_GITHUB_PR := by
    rw [hr]
    decide
  refine ⟨.obj (withId o id), ?_, v', ?_⟩
  · rw [inputData, if_neg hne]
    rfl
  · have hvalid' := validateValue_of_accepted (hreads.withId id) hq
    cases hsame with
    | obj hfields =>
      have hsame : Same (.obj (withId o id)) _ := .obj hfields
      obtain ⟨checks', hchecks, hreads'⟩ := (hreads.withId id).same hsame
      obtain ⟨v, hid, hvv⟩ := hsame.lookup_some (List.lookup_cons_self (k := "escrow_id"))
      cases hvv
      obtain ⟨input, hinput⟩ := input_fromValue hreads' (hq.same hchecks) hid
      exact ⟨input, hv', hinput, validateValue_same hvalid' hsame⟩

/-- What `create_escrow` stores has been validated. -/
lemma createEscrow_accepts {usageBefore usageAfter : ℕ} {worker terms : String}
    (h : createEscrow host c env usageBefore usageAfter worker terms = .ok (c', id)) :
    ∃ e t, c'.escrows id = some e ∧ e.terms = terms ∧ host.serde.fromStr terms = some t ∧
      e.rubric = (t.get "context").asStr.getD "" ∧
      (e.rubric = RUBRIC → AcceptedTerms host.serde terms) := by
  simp only [createEscrow, bind_ok_iff, guard_ok_iff, expect_ok_iff, pure_ok_iff,
    Prod.mk.injEq] at h
  obtain ⟨-, -, -, -, t, ht, r, hr, deadline, -, -, -, -, -, key, hkey, -, -, rfl, rfl⟩ := h
  refine ⟨_, t, Function.update_self .., rfl, ht, rfl, fun hrubric => ?_⟩
  dsimp only at hrubric
  have hne : r.name ≠ RUBRIC_GITHUB_PR := by
    rw [rubricDef_name hr, hrubric]
    decide
  rw [newIndexKey, if_neg hne, bind_ok_iff] at hkey
  obtain ⟨_, -, hkey⟩ := hkey
  split at hkey
  · rename_i hvalid
    obtain ⟨o, -, rfl, -⟩ := validateValue_ok hvalid
    exact ⟨o, ht, hvalid⟩
  · cases hkey

/-- Every escrow was opened with accepted terms. -/
def Validated (serde : Serde) (opened : ℕ → Option Escrow) : Prop :=
  ∀ id e, opened id = some e → e.rubric = RUBRIC → AcceptedTerms serde e.terms

lemma step_validated {ev : Near.Event} (hV : Validated host.serde w.opened)
    (h : step host w ev = .ok w') : Validated host.serde w'.opened := by
  cases ev with
  | createEscrow env before after worker terms =>
    simp only [step, bind_ok_iff, pure_ok_iff] at h
    obtain ⟨⟨c, id⟩, hc, rfl⟩ := h
    obtain ⟨e, t, he, rfl, -, -, haccepted⟩ := createEscrow_accepts hc
    intro id' e' he' hrubric
    dsimp only at he'
    by_cases hid : id' = id
    · subst hid
      rw [Function.update_self, he] at he'
      cases he'
      exact haccepted hrubric
    · rw [Function.update_of_ne hid] at he'
      exact hV id' e' he' hrubric
  | resolve env id =>
    simp only [step, bind_ok_iff, pure_ok_iff] at h
    obtain ⟨_, -, rfl⟩ := h
    exact hV
  | onArbiterResult i result =>
    simp only [step] at h
    split at h
    · rename_i id nonce request rest htake
      cases h
      cases hc : onArbiterResult host.serde w.contract id nonce result with
      | mk c payout =>
        rcases startPayout_cases w c { w.net with pending := rest } id payout with
          ⟨hw, -⟩ | hw | ⟨worker, amount, -, -, hw⟩
        · rw [hw]
          exact hV
        · rw [hw]
          exact hV
        · rw [hw]
          exact hV
    · cases h
  | settle i ok =>
    simp only [step, bind_ok_iff, pure_ok_iff] at h
    obtain ⟨net, -, rfl⟩ := h
    exact hV
  | onPayout i =>
    simp only [step] at h
    split at h
    · cases h
      exact hV
    · cases h
  | lose i =>
    simp only [step, bind_ok_iff, pure_ok_iff] at h
    obtain ⟨net, -, rfl⟩ := h
    exact hV
  | cancelExpired env id =>
    simp only [step, bind_ok_iff, pure_ok_iff] at h
    obtain ⟨_, -, net, -, rfl⟩ := h
    exact hV
  | resetStuck env id =>
    simp only [step, bind_ok_iff, pure_ok_iff] at h
    obtain ⟨c, -, rfl⟩ := h
    exact hV
  | receive amount =>
    cases h
    exact hV

lemma run_validated (host : Host) (balance : ℕ) (events : List Near.Event) :
    Validated host.serde ((machine host).run (.init balance) events).opened := by
  refine Machine.run_induction (M := machine host) (I := fun w => Validated host.serde w.opened)
    (fun _ _ _ hV h => step_validated hV h) ?_ events
  intro id e he
  cases he

/-- Terms that the contract accepts are readable for the enclave under every id, and what a
resolution hands the enclave is never refused. -/
theorem accepted_terms_readable (hserde : Faithful host.serde toStr) :
    (∀ c env usageBefore usageAfter worker terms c' id' t r,
      createEscrow host c env usageBefore usageAfter worker terms = .ok (c', id') →
      host.serde.fromStr terms = some t → (t.get "context").asStr = some RUBRIC →
      rubricDef RUBRIC = some r →
      ∀ id, ∃ v, inputData r t id = .ok v ∧ Readable host.serde (toStr v)) ∧
    ∀ balance events, let w := (machine host).run (.init balance) events
      ∀ env id e c' m, w.contract.escrows id = some e → e.rubric = RUBRIC →
        resolve host w.contract env id = .ok (c', m) →
        ∃ nonce request, m = .execution id nonce request ∧
          ∀ enclave : Enclave, enclave.serde = host.serde →
            (run enclave (toStr request.inputData)).reason ∉ REFUSALS := by
  constructor
  · intro c env usageBefore usageAfter worker terms c' id' t r h ht hcontext hr id
    obtain ⟨e, t', -, -, ht', hrubric, haccepted⟩ := createEscrow_accepts h
    cases ht.symm.trans ht'
    rw [hcontext, Option.getD_some] at hrubric
    exact (haccepted hrubric).readable hserde ht (rubricDef_name hr) id
  · intro balance events w env id e c' m he hrubric h
    have horigin := (run_inv host balance events).recorded.records.origin id e he
    have haccepted := run_validated host balance events id e.origin horigin hrubric
    simp only [resolve, bind_ok_iff, guard_ok_iff, expect_ok_iff, pure_ok_iff,
      Prod.mk.injEq] at h
    obtain ⟨-, -, -, -, e', he', -, -, r, hr, -, -, t, ht, v, hv, rfl, rfl⟩ := h
    cases he.symm.trans he'
    refine ⟨_, _, rfl, fun enclave henclave => ?_⟩
    obtain ⟨v', hv', v'', input, hread, hinput, hvalid⟩ :=
      haccepted.readable hserde ht (by rw [rubricDef_name hr, hrubric]) id
    cases hv.symm.trans hv'
    rw [← henclave] at hread hvalid
    exact run_notMem_refusals hread hinput hvalid

/-- Terms with one check. -/
def aliveTerms : String :=
  "\x7b\"context\":\"http_json_v1\",\"url\":\"https://api.io/\",\"deadline_unix\":1000," ++
    "\"checks\":[\x7b\"value\":-5,\"op\":\"gte_int\",\"path\":\"/n\"\x7d]\x7d"

/-- A call that opens an escrow. -/
def aliveEnv : Env where
  predecessor := "buyer"
  attachedDeposit := 2 * MIN_ESCROW
  prepaidGas := 0
  blockTimestamp := 0
  blockHeight := 0

theorem aliveTerms_readable : ∃ t r v, textSerde.fromStr aliveTerms = some t ∧
    rubricDef RUBRIC = some r ∧ inputData r t 7 = .ok v ∧ Readable textSerde (toText v) := by
  have hok :
      (createEscrow ⟨textSerde, 1⟩ .default aliveEnv 0 0 "worker" aliveTerms).isOk = true := by
    decide +kernel
  have hcontext : ((textSerde.fromStr aliveTerms).bind fun t => (t.get "context").asStr) =
      some RUBRIC := by decide +kernel
  cases hcreate : createEscrow ⟨textSerde, 1⟩ .default aliveEnv 0 0 "worker" aliveTerms with
  | error panic =>
    rw [hcreate] at hok
    cases hok
  | ok result =>
    obtain ⟨c', id'⟩ := result
    obtain ⟨t, ht, hcontext⟩ := Option.bind_eq_some_iff.mp hcontext
    obtain ⟨v, hv, hreadable⟩ := (accepted_terms_readable textSerde_faithful).1 _ _ _ _ _ _ _ _ t _
      hcreate ht hcontext rfl 7
    exact ⟨t, _, v, ht, rfl, hv, hreadable⟩

end Suwappu.Near.ArbiterHttp
