import VersionMatrix.Text.Utf8.Basic
import Mathlib.Data.List.Basic
import Mathlib.Tactic.SplitIfs

/-! The order of texts is that of the bytes that encode them. -/
namespace VersionMatrix.Text

/-- A byte of a leading part that is smaller decides. -/
theorem ofNat_cons_lt {n m : Nat} {rest rest' : List UInt8} (byte : n < 256) (byte' : m < 256) :
    UInt8.ofNat n :: rest < UInt8.ofNat m :: rest' ↔ n < m ∨ n = m ∧ rest < rest' := by
  have value {k : Nat} (small : k < 256) : (UInt8.ofNat k).toNat = k := by
    rw [UInt8.toNat_ofNat', Nat.mod_eq_of_lt small]
  rw [List.cons_lt_cons_iff, UInt8.lt_iff_toNat_lt, ← UInt8.toNat_inj, value byte, value byte']

/-- Of two numbers of four digits the smaller one has a smaller digit at the first place where they
differ. -/
theorem digits_lt {a b c d a' b' c' d' : Nat} (small : b < 64 ∧ c < 64 ∧ d < 64)
    (small' : b' < 64 ∧ c' < 64 ∧ d' < 64)
    (less : ((a * 64 + b) * 64 + c) * 64 + d < ((a' * 64 + b') * 64 + c') * 64 + d') :
    a < a' ∨ a = a' ∧ (b < b' ∨ b = b' ∧ (c < c' ∨ c = c' ∧ d < d')) := by
  omega

/-- The encoding of a smaller character comes before that of a greater one, whatever follows. -/
theorem utf8EncodeChar_append_lt {c d : Char} (less : c < d) (rest rest' : List UInt8) :
    String.utf8EncodeChar c ++ rest < String.utf8EncodeChar d ++ rest' := by
  have less : c.val.toNat < d.val.toNat := less
  have valid : d.val.toNat < 0xD800 ∨ 0xDFFF < d.val.toNat ∧ d.val.toNat < 0x110000 := d.valid
  unfold String.utf8EncodeChar
  dsimp only
  generalize c.val.toNat = v at *
  generalize d.val.toNat = w at *
  have digits (n : Nat) (small : n < 0x110000) :
      ((n / 262144 % 8 * 64 + n / 4096 % 64) * 64 + n / 64 % 64) * 64 + n % 64 = n := by omega
  have low (n : Nat) : n / 4096 % 64 < 64 ∧ n / 64 % 64 < 64 ∧ n % 64 < 64 := by omega
  have decided := digits_lt (low v) (low w) (by rwa [digits v (by omega), digits w (by omega)])
  split_ifs <;> simp (disch := omega) only [List.cons_append, List.nil_append, ofNat_cons_lt] <;> omega

theorem flatMap_utf8EncodeChar_lt {cs ds : List Char} (less : cs < ds) :
    cs.flatMap String.utf8EncodeChar < ds.flatMap String.utf8EncodeChar := by
  induction less with
  | @nil d ds =>
      rw [List.flatMap_nil, List.flatMap_cons]
      have filled : String.utf8EncodeChar d ≠ [] := by
        unfold String.utf8EncodeChar
        dsimp only
        split_ifs <;> exact List.cons_ne_nil _ _
      obtain ⟨byte, bytes, encoded⟩ := List.exists_cons_of_ne_nil filled
      rw [encoded]
      exact .nil
  | @rel c cs d ds first =>
      rw [List.flatMap_cons, List.flatMap_cons]
      exact utf8EncodeChar_append_lt first _ _
  | @cons c cs ds _ ih =>
      rw [List.flatMap_cons, List.flatMap_cons]
      exact List.append_left_lt ih

/-- One text comes before another exactly if its bytes come before those of the other. -/
theorem utf8_lt_iff {a b : String} : utf8 a < utf8 b ↔ a < b := by
  constructor
  · intro less
    by_contra other
    by_cases greater : b < a
    · exact List.lt_asymm less (flatMap_utf8EncodeChar_lt (String.lt_iff.1 greater))
    · rw [String.le_antisymm (String.not_lt.1 greater) (String.not_lt.1 other)] at less
      exact List.lt_irrefl _ less
  · exact fun less => flatMap_utf8EncodeChar_lt (String.lt_iff.1 less)

end VersionMatrix.Text
