import Mathlib.Data.List.DropRight
import Mathlib.Data.List.TakeWhile

/-!
# Base64

Bytes as characters of six bits each, in groups of four with padding, over the
alphabet that is safe in URLs. Decoding is lenient: it takes both alphabets,
steps over characters of neither, and stops at the padding that completes a
group.

What is encoded is decoded again, with its padding or with the padding that the
length of the rest asks for (`decode_repadded`).
-/

namespace MailboxService.Foundation.Base64

/-! ## The alphabet -/

def digit (n : ℕ) : Char :=
  if n < 26 then .ofNat (65 + n)
  else if n < 52 then .ofNat (97 + (n - 26))
  else if n < 62 then .ofNat (48 + (n - 52))
  else if n = 62 then '-'
  else '_'

/-- The six bits of a character, in either alphabet. -/
def value? (c : Char) : Option ℕ :=
  if 'A' ≤ c ∧ c ≤ 'Z' then some (c.toNat - 65)
  else if 'a' ≤ c ∧ c ≤ 'z' then some (c.toNat - 97 + 26)
  else if '0' ≤ c ∧ c ≤ '9' then some (c.toNat - 48 + 52)
  else if c = '-' ∨ c = '+' then some 62
  else if c = '_' ∨ c = '/' then some 63
  else none

theorem digit_facts : ∀ n < 64,
    value? (digit n) = some n ∧ digit n ≠ '=' ∧ (digit n).toNat < 128 ∧ digit n ≠ '.' := by
  decide +kernel

theorem value?_digit {n : ℕ} (h : n < 64) : value? (digit n) = some n := (digit_facts n h).1

theorem digit_ne_pad {n : ℕ} (h : n < 64) : digit n ≠ '=' := (digit_facts n h).2.1

/-! ## Encoding -/

def encodeUnpadded : List UInt8 → List Char
  | a :: b :: c :: rest =>
      digit (a.toNat / 4) :: digit (a.toNat % 4 * 16 + b.toNat / 16) ::
        digit (b.toNat % 16 * 4 + c.toNat / 64) :: digit (c.toNat % 64) :: encodeUnpadded rest
  | [a, b] =>
      [digit (a.toNat / 4), digit (a.toNat % 4 * 16 + b.toNat / 16), digit (b.toNat % 16 * 4)]
  | [a] => [digit (a.toNat / 4), digit (a.toNat % 4 * 16)]
  | [] => []

def padding (length : ℕ) : List Char := List.replicate ((4 - length % 4) % 4) '='

def encode (bytes : List UInt8) : List Char :=
  encodeUnpadded bytes ++ padding (encodeUnpadded bytes).length

/-! ## Decoding -/

/-- The loop of the decoder: how many characters of the group have been read, the
bits that are left of the last one, and the padding since. -/
def decodeLoop : ℕ → ℕ → ℕ → List Char → Option (List UInt8)
  | quad, _, _, [] => if quad = 0 then some [] else none
  | quad, left, pads, c :: rest =>
      if c = '=' then
        if 2 ≤ quad then
          if 4 ≤ quad + (pads + 1) then some [] else decodeLoop quad left (pads + 1) rest
        else decodeLoop quad left pads rest
      else
        match value? c with
        | none => decodeLoop quad left pads rest
        | some v =>
            match quad with
            | 0 => decodeLoop 1 v 0 rest
            | 1 => (decodeLoop 2 (v % 16) 0 rest).map (.ofNat (left * 4 + v / 16) :: ·)
            | 2 => (decodeLoop 3 (v % 4) 0 rest).map (.ofNat (left * 16 + v / 4) :: ·)
            | _ => (decodeLoop 0 0 0 rest).map (.ofNat (left * 64 + v) :: ·)

/-- Text that is not ASCII is refused. -/
def decode (text : List Char) : Option (List UInt8) :=
  if text.all (·.toNat < 128) then decodeLoop 0 0 0 text else none

/-! ## Round trips -/

section Digits

variable {n m k l pads : ℕ} (rest : List Char)

theorem decodeLoop_digit_zero (left : ℕ) (h : n < 64) :
    decodeLoop 0 left pads (digit n :: rest) = decodeLoop 1 n 0 rest := by
  rw [decodeLoop, if_neg (digit_ne_pad h), value?_digit h]
  rfl

theorem decodeLoop_digit_one (h : n < 64) :
    decodeLoop 1 l pads (digit n :: rest) =
      (decodeLoop 2 (n % 16) 0 rest).map (.ofNat (l * 4 + n / 16) :: ·) := by
  rw [decodeLoop, if_neg (digit_ne_pad h), value?_digit h]
  rfl

theorem decodeLoop_digit_two (h : n < 64) :
    decodeLoop 2 l pads (digit n :: rest) =
      (decodeLoop 3 (n % 4) 0 rest).map (.ofNat (l * 16 + n / 4) :: ·) := by
  rw [decodeLoop, if_neg (digit_ne_pad h), value?_digit h]
  rfl

theorem decodeLoop_digit_three (h : n < 64) :
    decodeLoop 3 l pads (digit n :: rest) =
      (decodeLoop 0 0 0 rest).map (.ofNat (l * 64 + n) :: ·) := by
  rw [decodeLoop, if_neg (digit_ne_pad h), value?_digit h]
  rfl

/-- A group of four characters is three bytes. -/
theorem decodeLoop_group (hn : n < 64) (hm : m < 64) (hk : k < 64) (hl : l < 64) :
    decodeLoop 0 0 0 (digit n :: digit m :: digit k :: digit l :: rest) =
      (decodeLoop 0 0 0 rest).map fun bytes =>
        .ofNat (n * 4 + m / 16) :: .ofNat (m % 16 * 16 + k / 4) :: .ofNat (k % 4 * 64 + l) ::
          bytes := by
  rw [decodeLoop_digit_zero _ _ hn, decodeLoop_digit_one _ hm, decodeLoop_digit_two _ hk,
    decodeLoop_digit_three _ hl]
  simp only [Option.map_map, Function.comp_def]

end Digits

/-- A byte that was cut in two is put together again. -/
theorem ofNat_eq {b : UInt8} {n : ℕ} (h : n = b.toNat) : UInt8.ofNat n = b := by
  rw [h, UInt8.ofNat_toNat]

theorem encode_group (a b c : UInt8) (rest : List UInt8) :
    encode (a :: b :: c :: rest) =
      digit (a.toNat / 4) :: digit (a.toNat % 4 * 16 + b.toNat / 16) ::
        digit (b.toNat % 16 * 4 + c.toNat / 64) :: digit (c.toNat % 64) :: encode rest := by
  have hlength : ∀ n, padding (n + 4) = padding n := fun n => by
    unfold padding
    rw [Nat.add_mod_right]
  unfold encode
  simp only [encodeUnpadded, List.length_cons, List.cons_append]
  rw [hlength]

theorem decodeLoop_encode (bytes : List UInt8) : decodeLoop 0 0 0 (encode bytes) = some bytes := by
  induction bytes using encodeUnpadded.induct with
  | case1 a b c rest ih =>
      have ha := a.toNat_lt
      have hb := b.toNat_lt
      have hc := c.toNat_lt
      rw [encode_group, decodeLoop_group _ (by omega) (by omega) (by omega) (by omega), ih,
        Option.map_some, ofNat_eq (b := a) (by omega), ofNat_eq (b := b) (by omega),
        ofNat_eq (b := c) (by omega)]
  | case2 a b =>
      have ha := a.toNat_lt
      have hb := b.toNat_lt
      show decodeLoop 0 0 0 [digit (a.toNat / 4), digit (a.toNat % 4 * 16 + b.toNat / 16),
        digit (b.toNat % 16 * 4), '='] = some [a, b]
      rw [decodeLoop_digit_zero _ _ (by omega), decodeLoop_digit_one _ (by omega),
        decodeLoop_digit_two _ (by omega)]
      show some [_, _] = _
      rw [ofNat_eq (b := a) (by omega), ofNat_eq (b := b) (by omega)]
  | case3 a =>
      have ha := a.toNat_lt
      show decodeLoop 0 0 0 [digit (a.toNat / 4), digit (a.toNat % 4 * 16), '=', '='] = some [a]
      rw [decodeLoop_digit_zero _ _ (by omega), decodeLoop_digit_one _ (by omega)]
      show some [_] = _
      rw [ofNat_eq (b := a) (by omega)]
  | case4 => rfl

theorem exists_digit_of_mem {bytes : List UInt8} {c : Char} (h : c ∈ encodeUnpadded bytes) :
    ∃ n < 64, c = digit n := by
  induction bytes using encodeUnpadded.induct with
  | case1 a b d rest ih =>
      have ha := a.toNat_lt
      have hb := b.toNat_lt
      have hd := d.toNat_lt
      simp only [encodeUnpadded, List.mem_cons] at h
      rcases h with rfl | rfl | rfl | rfl | h
      · exact ⟨_, by omega, rfl⟩
      · exact ⟨_, by omega, rfl⟩
      · exact ⟨_, by omega, rfl⟩
      · exact ⟨_, by omega, rfl⟩
      · exact ih h
  | case2 a b =>
      have ha := a.toNat_lt
      have hb := b.toNat_lt
      simp only [encodeUnpadded, List.mem_cons, List.not_mem_nil, or_false] at h
      rcases h with rfl | rfl | rfl
      · exact ⟨_, by omega, rfl⟩
      · exact ⟨_, by omega, rfl⟩
      · exact ⟨_, by omega, rfl⟩
  | case3 a =>
      have ha := a.toNat_lt
      simp only [encodeUnpadded, List.mem_cons, List.not_mem_nil, or_false] at h
      rcases h with rfl | rfl
      · exact ⟨_, by omega, rfl⟩
      · exact ⟨_, by omega, rfl⟩
  | case4 => cases h

theorem ascii_encode (bytes : List UInt8) : (encode bytes).all (·.toNat < 128) = true := by
  rw [List.all_eq_true]
  intro c hc
  rcases List.mem_append.mp hc with hc | hc
  · obtain ⟨n, hn, rfl⟩ := exists_digit_of_mem hc
    exact decide_eq_true (digit_facts n hn).2.2.1
  · rw [List.eq_of_mem_replicate hc]
    rfl

/-- **Decoding undoes encoding.** -/
theorem decode_encode (bytes : List UInt8) : decode (encode bytes) = some bytes := by
  rw [decode, if_pos (ascii_encode bytes), decodeLoop_encode]

/-- The padding may be left out and put back. -/
theorem decode_repadded (bytes : List UInt8) :
    decode (encodeUnpadded bytes ++ padding (encodeUnpadded bytes).length) = some bytes :=
  decode_encode bytes

theorem dot_not_mem_encodeUnpadded (bytes : List UInt8) : '.' ∉ encodeUnpadded bytes := by
  intro h
  obtain ⟨n, hn, hdot⟩ := exists_digit_of_mem h
  exact (digit_facts n hn).2.2.2 hdot.symm

end MailboxService.Foundation.Base64
