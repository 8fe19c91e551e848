import Mathlib
import Suwappu.Seal.Canonical

/-!
# Commitments

A thesis is sealed by the hash of its canonical text behind a nonce, and checked against it later.
`canonicalize_binding`: for JSON values, and up to the order of keys, the text is that of one value
alone, the value is read back from it, and a commitment accepts the thesis that it seals and no
other one.
-/

namespace Suwappu.Seal

open JsJson

def sealAlgo : List Char := "sha256-canonical-v1".toList

section Sha256

variable (sha256 : ByteArray → Vector UInt8 32)

/-- What is hashed, in UTF-8. -/
def preimage (nonce : JsString) (text : List Char) : ByteArray :=
  (String.ofList (sealAlgo ++ '|' :: (toWellFormed nonce ++ '|' :: text))).toUTF8

def hexPair (byte : UInt8) : List Char :=
  [JsonText.hexDigit (byte.toNat / 16), JsonText.hexDigit (byte.toNat % 16)]

/-- `digest('hex')` -/
def toHex (digest : Vector UInt8 32) : List Char := digest.toList.flatMap hexPair

def computeCommitment (thesis : Value) (nonce : JsString) : Except String (List Char) :=
  if nonce = [] then .error "computeCommitment: nonce is required"
  else do
    let text ← canonicalize thesis
    return toHex (sha256 (preimage nonce text))

/-- `/^[0-9a-f]{64}$/i` -/
def isCommitment (commitment : List Char) : Bool :=
  commitment.length = 64 && commitment.all fun c => (JsonText.hexValue c).isSome

/-- `Buffer.from(text, 'hex')`: up to the first pair that is not hexadecimal -/
def fromHex : List Char → List UInt8
  | high :: low :: rest =>
    match JsonText.hexValue high, JsonText.hexValue low with
    | some a, some b => UInt8.ofNat (a * 16 + b) :: fromHex rest
    | _, _           => []
  | _                   => []

def verifySeal (thesis : Value) (nonce : JsString) (commitment : List Char) : Bool :=
  if isCommitment commitment = true then
    match computeCommitment sha256 thesis nonce with
    | .ok recomputed =>
      let a := fromHex recomputed
      let b := fromHex (commitment.map Char.toLower)
      if a.length ≠ b.length then false else a == b
    | .error _       => false
  else false

/-! ### Digests in text -/

lemma hexDigit_spec {n : ℕ} (h : n < 16) :
    (JsonText.hexDigit n).toLower = JsonText.hexDigit n ∧
      JsonText.hexValue (JsonText.hexDigit n) = some n :=
  ⟨by interval_cases n <;> decide, hexValue_hexDigit h⟩

lemma hexPair_spec (byte : UInt8) (rest : List Char) :
    (hexPair byte).map Char.toLower = hexPair byte ∧
      (∀ c ∈ hexPair byte, (JsonText.hexValue c).isSome = true) ∧
        fromHex (hexPair byte ++ rest) = byte :: fromHex rest := by
  have hlt := byte.toNat_lt
  obtain ⟨hlower, hvalue⟩ := hexDigit_spec (by omega : byte.toNat / 16 < 16)
  obtain ⟨hlower', hvalue'⟩ := hexDigit_spec (by omega : byte.toNat % 16 < 16)
  refine ⟨?_, ?_, ?_⟩
  · rw [hexPair, List.map_cons, List.map_cons, List.map_nil, hlower, hlower']
  · intro c hc
    rcases List.mem_pair.mp hc with rfl | rfl
    · rw [hvalue]
      rfl
    · rw [hvalue']
      rfl
  · rw [hexPair, List.cons_append, List.cons_append, List.nil_append, fromHex, hvalue, hvalue']
    dsimp only
    rw [Nat.div_add_mod', UInt8.ofNat_toNat]

lemma toLower_hexPairs (bytes : List UInt8) :
    (bytes.flatMap hexPair).map Char.toLower = bytes.flatMap hexPair := by
  induction bytes with
  | nil => rfl
  | cons byte bytes ih => rw [List.flatMap_cons, List.map_append, (hexPair_spec byte []).1, ih]

lemma fromHex_hexPairs (bytes : List UInt8) : fromHex (bytes.flatMap hexPair) = bytes := by
  induction bytes with
  | nil => rfl
  | cons byte bytes ih => rw [List.flatMap_cons, (hexPair_spec byte _).2.2, ih]

lemma length_hexPairs (bytes : List UInt8) :
    (bytes.flatMap hexPair).length = 2 * bytes.length := by
  induction bytes with
  | nil => rfl
  | cons byte bytes ih =>
    rw [List.flatMap_cons, List.length_append, ih, hexPair, List.length_cons, List.length_cons,
      List.length_cons, List.length_nil]
    omega

lemma isCommitment_toHex (digest : Vector UInt8 32) : isCommitment (toHex digest) = true := by
  have hlength : (toHex digest).length = 64 := by
    rw [toHex, length_hexPairs, Vector.length_toList]
  rw [isCommitment, hlength, Bool.and_eq_true, List.all_eq_true]
  refine ⟨rfl, fun c hc => ?_⟩
  obtain ⟨byte, -, hc⟩ := List.mem_flatMap.mp hc
  exact (hexPair_spec byte []).2.1 c hc

/-- A check compares digests. -/
lemma verifySeal_toHex {thesis : Value} {nonce : JsString} {text : List Char} (hnonce : nonce ≠ [])
    (htext : canonicalize thesis = .ok text) (digest : Vector UInt8 32) :
    verifySeal sha256 thesis nonce (toHex digest) = true ↔
      sha256 (preimage nonce text) = digest := by
  have hcommitment : computeCommitment sha256 thesis nonce =
      .ok (toHex (sha256 (preimage nonce text))) := by
    rw [computeCommitment, if_neg hnonce, htext]
    rfl
  rw [verifySeal, if_pos (isCommitment_toHex digest), hcommitment]
  dsimp only
  rw [toHex, toHex, toLower_hexPairs, fromHex_hexPairs, fromHex_hexPairs, Vector.length_toList,
    Vector.length_toList, if_neg (fun hne => hne rfl), beq_iff_eq, Vector.toList_inj]

end Sha256

lemma preimage_inj {nonce : JsString} {text text' : List Char}
    (h : preimage nonce text = preimage nonce text') : text = text' := by
  have hchars := String.ofList_injective (String.toByteArray_inj.mp h)
  have hnonce := List.append_cancel_left (List.cons.inj (List.append_cancel_left hchars)).2
  exact (List.cons.inj hnonce).2

/-- What is hashed for some theses. -/
def preimages (nonce : JsString) (theses : Set Value) : Set ByteArray :=
  {p | ∃ thesis ∈ theses, ∃ text, canonicalize thesis = .ok text ∧ preimage nonce text = p}

/-- The canonical text of a JSON value is that of the values that are equal up to the order of
their keys, and of no others, and one of them is read back from it. With a hash that has no
collision on the two theses, a commitment to the one accepts the other if and only if they are
equal up to the order of their keys, also when that one was stored as JSON. -/
theorem canonicalize_binding {x y : Json} (hx : DistinctKeys x) (hy : DistinctKeys y) :
    (canonicalize x.toValue = canonicalize y.toValue ↔ Same x y) ∧
    (∃ text x', canonicalize x.toValue = .ok text ∧ parse text = some x'.toValue ∧ Same x x') ∧
    ∀ (sha256 : ByteArray → Vector UInt8 32) (nonce : JsString), nonce ≠ [] →
      Set.InjOn sha256 (preimages nonce {x.toValue, y.toValue}) →
      ∃ commitment, computeCommitment sha256 x.toValue nonce = .ok commitment ∧
        (verifySeal sha256 y.toValue nonce commitment = true ↔ Same x y) ∧
        ∃ stored, parse (stringify y) = some stored ∧
          (verifySeal sha256 stored nonce commitment = true ↔ Same x y) := by
  have htext := canonicalize_toValue hx
  have htext' := canonicalize_toValue hy
  have hsame := stringify_normalize_eq_iff hx hy
  refine ⟨?_, ⟨_, _, htext, parse_stringify hx.normal, hx.same_normalize⟩, ?_⟩
  · rw [htext, htext', Except.ok.injEq, hsame]
  · intro sha256 nonce hnonce hhash
    have hverify : verifySeal sha256 y.toValue nonce
        (toHex (sha256 (preimage nonce (stringify (normalize x))))) = true ↔ Same x y := by
      rw [verifySeal_toHex sha256 hnonce htext', ← hsame]
      constructor
      · intro h
        refine (preimage_inj (hhash ?_ ?_ h)).symm
        · exact ⟨y.toValue, Set.mem_insert_of_mem _ rfl, _, htext', rfl⟩
        · exact ⟨x.toValue, Set.mem_insert _ _, _, htext, rfl⟩
      · intro h
        rw [h]
    refine ⟨_, ?_, hverify, y.toValue, parse_stringify hy, hverify⟩
    rw [computeCommitment, if_neg hnonce, htext]
    rfl

/-- `{"action": …}` -/
def trade (action : List Char) : Json :=
  .obj [("action".toList.map (UInt16.ofNat ∘ Char.toNat),
    .str (action.map (UInt16.ofNat ∘ Char.toNat)))]

/-- `{"action":"buy"}` -/
def buyText : List Char :=
  ['{', '"', 'a', 'c', 't', 'i', 'o', 'n', '"', ':', '"', 'b', 'u', 'y', '"', '}']

def buyDigest : Vector UInt8 32 :=
  #v[169, 144, 114, 105, 89, 172, 182, 55, 40, 229, 125, 23, 72, 59, 70, 162, 60, 225, 252, 240,
    225, 147, 61, 145, 188, 68, 204, 157, 254, 161, 242, 242]

/-- The hash of a purchase behind the nonce `00ff`, and that of a sale. -/
def tradeHash (p : ByteArray) : Vector UInt8 32 :=
  if p = preimage [0x30, 0x30, 0x66, 0x66] buyText then buyDigest
  else
    #v[69, 12, 121, 3, 83, 154, 244, 54, 44, 214, 0, 157, 142, 136, 74, 166, 35, 10, 61, 63, 177,
      172, 51, 184, 194, 22, 194, 175, 112, 125, 60, 188]

/-- A purchase that was sealed is not accepted as a sale. -/
theorem sale_refused :
    ∃ commitment,
      computeCommitment tradeHash (trade "buy".toList).toValue [0x30, 0x30, 0x66, 0x66] =
        .ok commitment ∧
      verifySeal tradeHash (trade "sell".toList).toValue [0x30, 0x30, 0x66, 0x66] commitment =
        false := by
  have hdistinct : ∀ action, DistinctKeys (trade action) := fun action =>
    .obj (List.nodup_singleton _) (List.forall_mem_singleton.mpr (.str _))
  have hnormal : ∀ action, normalize (trade action) = trade action := fun action => by
    simp only [trade, JsJson.normalize, normalizeFields, Canonical.sorted, List.mergeSort_singleton]
  have hbuy : stringify (trade "buy".toList) = buyText := by
    decide
  have hsell : stringify (trade "sell".toList) ≠ buyText := by
    decide
  have hsame : ¬ Same (trade "buy".toList) (trade "sell".toList) := by
    rw [← stringify_normalize_eq_iff (hdistinct _) (hdistinct _), hnormal, hnormal, hbuy]
    exact hsell.symm
  obtain ⟨-, -, hseal⟩ := canonicalize_binding (hdistinct "buy".toList) (hdistinct "sell".toList)
  have htext : ∀ action, canonicalize (trade action).toValue = .ok (stringify (trade action)) :=
    fun action => by rw [canonicalize_toValue (hdistinct action), hnormal]
  have hhash : Set.InjOn tradeHash (preimages [0x30, 0x30, 0x66, 0x66]
      {(trade "buy".toList).toValue, (trade "sell".toList).toValue}) := by
    have hbuy' :
        tradeHash (preimage [0x30, 0x30, 0x66, 0x66] (stringify (trade "buy".toList))) =
          buyDigest := by
      rw [hbuy]
      exact if_pos rfl
    have hsell' : tradeHash (preimage [0x30, 0x30, 0x66, 0x66] (stringify (trade "sell".toList))) ≠
        buyDigest := by
      rw [tradeHash, if_neg fun h => hsell (preimage_inj h)]
      decide
    rintro p ⟨thesis, hthesis, text, hp, rfl⟩ q ⟨thesis', hthesis', text', hq, rfl⟩ heq
    rcases hthesis with rfl | rfl <;> rcases hthesis' with rfl | rfl <;>
      rw [htext, Except.ok.injEq] at hp hq <;> subst hp hq
    · rfl
    · exact absurd (heq.symm.trans hbuy') hsell'
    · exact absurd (heq.trans hbuy') hsell'
    · rfl
  obtain ⟨commitment, hcommitment, hverify, -⟩ := hseal tradeHash [0x30, 0x30, 0x66, 0x66]
    (by decide) hhash
  refine ⟨commitment, hcommitment, ?_⟩
  rw [Bool.eq_false_iff, Ne, hverify]
  exact hsame

end Suwappu.Seal
