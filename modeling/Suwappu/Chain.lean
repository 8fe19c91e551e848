import Suwappu.Lib.Checked

/-!
# What every contract sees of the chain

Addresses are 160-bit, block timestamps are the 64-bit numbers of the block header, and a clock
never runs backwards. A call of another contract answers with a result the caller cannot choose;
the models take that answer as an argument of the call.
-/

namespace Suwappu

/-- A 160-bit account address. -/
abbrev Address := Fin (2 ^ 160)

/-- A 64-bit word. -/
abbrev Uint64 := Fin (2 ^ 64)

/-- A 256-bit word. -/
abbrev Uint256 := Fin (2 ^ 256)

/-- A block timestamp, as the block header stores it. -/
abbrev BlockTime := Fin (2 ^ 64)

/-- `address(0)`. -/
def Address.zero : Address := ⟨0, by norm_num⟩

/-- An address from a small number, for concrete runs. -/
def Address.ofNat (n : ℕ) : Address := ⟨n % 2 ^ 160, Nat.mod_lt _ (by norm_num)⟩

/-- A block timestamp from a small number, for concrete runs. -/
def BlockTime.ofNat (n : ℕ) : BlockTime := ⟨n % 2 ^ 64, Nat.mod_lt _ (by norm_num)⟩

/-- The conversion `int256(x)` of an unsigned word, which wraps. -/
def int256 (x : ℕ) : ℤ := (x : ℤ).bmod (2 ^ 256)

lemma int256_eq {x : ℕ} (h : x < 2 ^ 255) : int256 x = x :=
  Int.bmod_eq_of_le_mul_two (by push_cast; omega) (by push_cast; omega)

end Suwappu
