import Mathlib.Tactic

/-!
# Byte strings

Texts and numbers as the transcripts of the signer hash them.
-/

namespace Suwappu.MpcSigner

abbrev Bytes := List UInt8

/-- `[u8; 32]` -/
abbrev Bytes32 := { bytes : Bytes // bytes.length = 32 }

/-- `[u8; 33]` -/
abbrev Bytes33 := { bytes : Bytes // bytes.length = 33 }

/-- The bytes of a text. -/
def ascii (text : String) : Bytes := text.toUTF8.toList

/-- `to_be_bytes` of a number of `width` bytes. -/
def toBeBytes : ℕ → ℕ → Bytes
  | 0, _         => []
  | width + 1, n => toBeBytes width (n / 256) ++ [.ofNat n]

/-- The number that big-endian bytes stand for. -/
def ofBeBytes (bytes : Bytes) : ℕ := bytes.foldl (fun n b => 256 * n + b.toNat) 0

@[simp] lemma length_toBeBytes (width n : ℕ) : (toBeBytes width n).length = width := by
  induction width generalizing n with
  | zero => rfl
  | succ width ih => rw [toBeBytes, List.length_append, ih, List.length_singleton]

/-- A number as 32 bytes. -/
def bytes32 (n : ℕ) : Bytes32 := ⟨toBeBytes 32 n, length_toBeBytes 32 n⟩

lemma ofBeBytes_toBeBytes {width n : ℕ} (h : n < 256 ^ width) :
    ofBeBytes (toBeBytes width n) = n := by
  induction width generalizing n with
  | zero =>
    rw [pow_zero, Nat.lt_one_iff] at h
    exact h.symm
  | succ width ih =>
    have hdiv : n / 256 < 256 ^ width := Nat.div_lt_of_lt_mul (by rwa [pow_succ'] at h)
    have hrest := ih hdiv
    rw [ofBeBytes] at hrest ⊢
    rw [toBeBytes, List.foldl_append, hrest, List.foldl_cons, List.foldl_nil, UInt8.toNat_ofNat']
    exact Nat.div_add_mod n 256

/-- Parts of one width can be read off what they are joined to. -/
lemma flatMap_inj {α : Type} {part : α → Bytes} {width : ℕ}
    (hwidth : ∀ a, (part a).length = width) {l l' : List α} (hlength : l.length = l'.length)
    (h : l.flatMap part = l'.flatMap part) : l.map part = l'.map part := by
  induction l generalizing l' with
  | nil => rw [List.length_eq_zero_iff.mp hlength.symm]
  | cons a l ih =>
    cases l' with
    | nil => simp at hlength
    | cons a' l' =>
      rw [List.flatMap_cons, List.flatMap_cons] at h
      obtain ⟨ha, hl⟩ := List.append_inj h ((hwidth a).trans (hwidth a').symm)
      rw [List.map_cons, List.map_cons, ha, ih (Nat.succ.inj hlength) hl]

end Suwappu.MpcSigner
