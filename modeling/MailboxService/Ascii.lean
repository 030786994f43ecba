import MailboxService.LeaseService.Store

/-!
# The service on ASCII text

A platform on which everything computes: text is lowered and stripped by the
ASCII rules, and two texts are equal for the database when they are equal
after lowering.
-/

namespace MailboxService

namespace Ascii

/-- White space: the space, and the characters from tab to carriage return. -/
def isSpace (c : Char) : Bool := c.toNat = 32 || (9 ≤ c.toNat && c.toNat ≤ 13)

theorem toNat_toLower (c : Char) :
    c.toLower.toNat = if 65 ≤ c.toNat ∧ c.toNat ≤ 90 then c.toNat + 32 else c.toNat := by
  unfold Char.toLower
  have hA : ('A'.val ≤ c.val) ↔ 65 ≤ c.toNat := by
    rw [UInt32.le_iff_toNat_le]
    rfl
  have hZ : (c.val ≤ 'Z'.val) ↔ c.toNat ≤ 90 := by
    rw [UInt32.le_iff_toNat_le]
    rfl
  simp only [ge_iff_le, hA, hZ]
  split
  · rename_i h
    show (c.val + ('a'.val - 'A'.val)).toNat = _
    rw [UInt32.toNat_add]
    have : c.val.toNat = c.toNat := rfl
    have h32 : ('a'.val - 'A'.val).toNat = 32 := rfl
    rw [this, h32]
    omega
  · rfl

theorem toLower_toLower (c : Char) : c.toLower.toLower = c.toLower := by
  have h : c.toLower.toLower.toNat = c.toLower.toNat := by
    rw [toNat_toLower c.toLower, toNat_toLower c]
    split_ifs <;> omega
  exact Char.ext (UInt32.toNat_inj.mp h)

theorem isSpace_toLower (c : Char) : isSpace c.toLower = isSpace c := by
  unfold isSpace
  rw [toNat_toLower]
  split
  · rename_i h
    rw [Bool.eq_iff_iff]
    simp only [Bool.or_eq_true, Bool.and_eq_true, decide_eq_true_eq]
    omega
  · rfl

end Ascii

@[reducible] def asciiText : PythonText where
  lowerChar c := [c.toLower]
  isSpace := Ascii.isSpace
  lowerChar_ne_nil _ := List.cons_ne_nil _ _
  lowerChar_lower c d hd := by
    rw [List.mem_singleton] at hd
    rw [hd, Ascii.toLower_toLower]
  lowerChar_space c d hd := by
    rw [List.mem_singleton] at hd
    rw [hd, Ascii.isSpace_toLower]
  plus_not_space := rfl

@[reducible] def asciiPlatform : Platform :=
  { asciiText with
    key := @Text.lower asciiText
    key_lower := @Text.lower_lower asciiText }

end MailboxService
