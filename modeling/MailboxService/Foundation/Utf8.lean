import MailboxService.Foundation.Budget
import Mathlib.Data.List.DropRight

/-!
# UTF-8

A text as its bytes. A character of several bytes starts with a leading byte, and
the bytes behind it are continuations; an ASCII character is a byte that is
neither. Decoding either ignores the bytes that are no character's, or refuses them.
-/

namespace MailboxService.Foundation.Utf8

def encode (text : List Char) : List UInt8 := text.flatMap String.utf8EncodeChar

def isContinuation (b : UInt8) : Bool := b &&& 0xC0 == 0x80

def isLeading (b : UInt8) : Bool := b &&& 0xC0 == 0xC0

def decodeSkipping : ℕ → List UInt8 → List Char
  | _, [] => []
  | skipped + 1, _ :: rest => decodeSkipping skipped rest
  | 0, b :: rest =>
      match (b :: rest).toByteArray.utf8DecodeChar? 0 with
      | some c => c :: decodeSkipping (c.utf8Size - 1) rest
      -- a byte that no character starts with is ignored
      | none => decodeSkipping 0 rest

def decodeIgnoring (bytes : List UInt8) : List Char := decodeSkipping 0 bytes

/-! ## Encoded texts -/

@[simp] theorem encode_nil : encode [] = [] := rfl

@[simp] theorem encode_cons (c : Char) (text : List Char) :
    encode (c :: text) = String.utf8EncodeChar c ++ encode text := by
  simp [encode]

@[simp] theorem encode_append (a b : List Char) : encode (a ++ b) = encode a ++ encode b := by
  simp [encode]

theorem length_encode (text : List Char) :
    (encode text).length = totalSize Char.utf8Size text := by
  induction text with
  | nil => rfl
  | cons c text ih => simp [ih]

theorem decodeSkipping_append (s bytes : List UInt8) :
    decodeSkipping s.length (s ++ bytes) = decodeIgnoring bytes := by
  induction s with
  | nil => rfl
  | cons b s ih => simpa [decodeSkipping] using ih

theorem decodeIgnoring_append (c : Char) (bytes : List UInt8) :
    decodeIgnoring (String.utf8EncodeChar c ++ bytes) = c :: decodeIgnoring bytes := by
  have hdecode : (String.utf8EncodeChar c ++ bytes).toByteArray.utf8DecodeChar? 0 = some c := by
    rw [List.toByteArray_append]
    exact ByteArray.utf8DecodeChar?_utf8EncodeChar_append
  have hlength := String.length_utf8EncodeChar c
  cases hbytes : String.utf8EncodeChar c with
  | nil =>
      rw [hbytes, List.length_nil] at hlength
      exact absurd hlength.symm (Nat.ne_of_gt c.utf8Size_pos)
  | cons b s =>
      rw [hbytes, List.cons_append] at hdecode
      rw [hbytes, List.length_cons] at hlength
      show decodeSkipping 0 (b :: (s ++ bytes)) = _
      rw [decodeSkipping, hdecode]
      show c :: decodeSkipping (c.utf8Size - 1) (s ++ bytes) = _
      rw [← hlength, Nat.add_sub_cancel, decodeSkipping_append]

/-- **Decoding undoes encoding.** -/
theorem decodeIgnoring_encode (text : List Char) : decodeIgnoring (encode text) = text := by
  induction text with
  | nil => rfl
  | cons c text ih => rw [encode_cons, decodeIgnoring_append, ih]

/-! ## Strict decoding -/

def decode? (bytes : List UInt8) : Option (List Char) :=
  bytes.toByteArray.utf8Decode?.map Array.toList

theorem utf8Encode_eq (text : List Char) : text.utf8Encode = (encode text).toByteArray := rfl

theorem decode?_eq_some {bytes : List UInt8} {text : List Char} :
    decode? bytes = some text ↔ bytes = encode text := by
  constructor
  · intro h
    obtain ⟨chars, hchars, rfl⟩ := Option.map_eq_some_iff.mp h
    obtain ⟨l, hl⟩ := ByteArray.isSome_utf8Decode?_iff.mp (Option.isSome_of_eq_some hchars)
    rw [hl, List.utf8Decode?_utf8Encode, Option.some.injEq] at hchars
    rw [← hchars]
    have hbytes := congrArg (fun b => b.data.toList) (hl.trans (utf8Encode_eq l))
    simpa using hbytes
  · rintro rfl
    unfold decode?
    rw [← utf8Encode_eq, List.utf8Decode?_utf8Encode]
    simp

/-! ## The bytes of a character -/

theorem le_of_isContinuation {b : UInt8} (h : isContinuation b = true) : 128 ≤ b.toNat := by
  have hmask : (b &&& 0xC0).toNat = 128 := by
    rw [beq_iff_eq.mp h]
    rfl
  rw [UInt8.toNat_and] at hmask
  have hle : b.toNat &&& (0xC0 : UInt8).toNat ≤ b.toNat := Nat.and_le_left
  omega

theorem le_of_isLeading {b : UInt8} (h : isLeading b = true) : 128 ≤ b.toNat := by
  have hmask : (b &&& 0xC0).toNat = 192 := by
    rw [beq_iff_eq.mp h]
    rfl
  rw [UInt8.toNat_and] at hmask
  have hle : b.toNat &&& (0xC0 : UInt8).toNat ≤ b.toNat := Nat.and_le_left
  omega

theorem masked_or (x mask mark other : UInt8) :
    (x &&& mask ||| mark) &&& other = (x &&& (mask &&& other)) ||| (mark &&& other) := by
  apply UInt8.toNat_inj.mp
  simp only [UInt8.toNat_and, UInt8.toNat_or, Nat.and_or_distrib_right, Nat.and_assoc]

theorem isContinuation_or (x : UInt8) : isContinuation (x &&& 0x3f ||| 0x80) = true := by
  have hmask : (0x3f : UInt8) &&& 0xC0 = 0 := by decide
  have hmark : (0x80 : UInt8) &&& 0xC0 = 0x80 := by decide
  simp [isContinuation, masked_or, hmask, hmark]

theorem isLeading_or {x mask mark : UInt8} (hmask : mask &&& 0xC0 = 0)
    (hmark : mark &&& 0xC0 = 0xC0) : isLeading (x &&& mask ||| mark) = true := by
  simp [isLeading, masked_or, hmask, hmark]

/-- **The bytes of a character**: one byte of ASCII, or a leading byte in front of
continuations. -/
theorem utf8EncodeChar_cases (c : Char) :
    (c.utf8Size = 1 ∧ ∃ b, String.utf8EncodeChar c = [b] ∧ isContinuation b = false ∧
      isLeading b = false) ∨
    1 < c.utf8Size ∧ ∃ b bytes, String.utf8EncodeChar c = b :: bytes ∧ isLeading b = true ∧
      ∀ x ∈ bytes, isContinuation x = true := by
  rcases c.utf8Size_eq with h | h | h | h
  · refine Or.inl ⟨h, c.val.toUInt8, String.utf8EncodeChar_eq_singleton h, ?_⟩
    have hascii : c.val.toUInt8.toNat < 128 := by
      have hle : c.val.toNat ≤ 127 := UInt32.le_iff_toNat_le.mp (Char.utf8Size_eq_one_iff.mp h)
      rw [UInt32.toNat_toUInt8]
      omega
    constructor
    · by_contra hc
      have := le_of_isContinuation (eq_true_of_ne_false hc)
      omega
    · by_contra hc
      have := le_of_isLeading (eq_true_of_ne_false hc)
      omega
  · refine Or.inr ⟨by omega, _, _, String.utf8EncodeChar_eq_cons_cons h,
      isLeading_or (by decide) (by decide), ?_⟩
    simp [isContinuation_or]
  · refine Or.inr ⟨by omega, _, _, String.utf8EncodeChar_eq_cons_cons_cons h,
      isLeading_or (by decide) (by decide), ?_⟩
    simp [isContinuation_or]
  · refine Or.inr ⟨by omega, _, _, String.utf8EncodeChar_eq_cons_cons_cons_cons h,
      isLeading_or (by decide) (by decide), ?_⟩
    simp [isContinuation_or]

/-! ## Prefixes -/

/-- The first bytes of a text: those of the characters that fit, and some of the next
one's. -/
theorem take_encode {before after : List Char} {c : Char} {n : ℕ}
    (h : (encode before).length ≤ n) (hc : n < (encode before).length + c.utf8Size) :
    (encode (before ++ c :: after)).take n =
      encode before ++ (String.utf8EncodeChar c).take (n - (encode before).length) := by
  have hlength := String.length_utf8EncodeChar c
  rw [encode_append, encode_cons, List.take_append, List.take_of_length_le h,
    List.take_append_of_le_length (by omega)]

end MailboxService.Foundation.Utf8
