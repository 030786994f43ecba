import MailboxService.Foundation.Utf8
import MailboxService.VerificationCode.CodeMatchers

/-!
# The byte budget of a text

`truncate_text_to_byte_budget` cuts the encoded text and then looks backwards for
the start of the last character: it drops the continuations at the end, and the
leading byte in front of them. It does not ask whether they were all there, so that
a whole character goes as well where the budget ends right behind it.
-/

namespace MailboxService

open Foundation

/-- What is done to the bytes behind the cut. -/
def dropIncompleteSequence (truncated : List UInt8) : List UInt8 :=
  let truncated := truncated.rdropWhile Utf8.isContinuation
  if truncated.getLast?.any Utf8.isLeading then truncated.dropLast else truncated

/-- `truncate_text_to_byte_budget`, on the bytes. -/
def truncateEncoded (text : String) (maximumBytes : ℕ) : String :=
  if maximumBytes = 0 then ""
  else
    let encoded := Utf8.encode text.toList
    if encoded.length ≤ maximumBytes then text
    else .ofList (Utf8.decodeIgnoring (dropIncompleteSequence (encoded.take maximumBytes)))

def isWide (c : Char) : Bool := 128 ≤ c.toNat

/-- **An exact truncation**: the longest prefix of the text that is encoded in no
more bytes than the budget; and another one with the same budget changes nothing. -/
structure TruncatesExactly (text : String) (maximumBytes : ℕ) (truncated : String) : Prop where
  isPrefix : truncated.toList <+: text.toList
  within : (Utf8.encode truncated.toList).length ≤ maximumBytes
  longest : ∀ longer, longer <+: text.toList → (Utf8.encode longer).length ≤ maximumBytes →
    longer <+: truncated.toList
  idempotent : truncateEncoded truncated maximumBytes = truncated

/-- The budget ends right behind a character of several bytes, and the text goes on. -/
def CutsBehindCharacter (text : String) (maximumBytes : ℕ) : Prop :=
  ∃ before c after, text.toList = before ++ c :: after ∧ after ≠ [] ∧
    (Utf8.encode (before ++ [c])).length = maximumBytes ∧ isWide c = true

/-- The characters that a budget is enough for, without the last one if it has
several bytes and uses the budget up. -/
def keptCharacters (maximumBytes : ℕ) (text : List Char) : List Char :=
  let fitting := affordable Char.utf8Size maximumBytes text
  if totalSize Char.utf8Size fitting = maximumBytes ∧ fitting.getLast?.any isWide = true then
    fitting.dropLast
  else fitting

/-! ## Characters and their bytes -/

theorem isWide_iff {c : Char} : isWide c = true ↔ 1 < c.utf8Size := by
  have hone : c.utf8Size = 1 ↔ c.toNat ≤ 127 :=
    Char.utf8Size_eq_one_iff.trans UInt32.le_iff_toNat_le
  have hpos := c.utf8Size_pos
  unfold isWide
  rw [decide_eq_true_eq]
  omega

theorem length_encode_toList (text : String) :
    (Utf8.encode text.toList).length = text.utf8ByteSize := by
  rw [← String.size_toByteArray, ← String.utf8Encode_toList]
  exact List.size_toByteArray.symm

/-- Of a character of several bytes nothing is left, wherever it is cut. -/
theorem dropIncompleteSequence_wide {c : Char} (hc : isWide c = true) (bytes : List UInt8) {k : ℕ}
    (hk : 0 < k) : dropIncompleteSequence (bytes ++ (String.utf8EncodeChar c).take k) = bytes := by
  rcases Utf8.utf8EncodeChar_cases c with ⟨hone, -⟩ | ⟨-, b, more, hbytes, hleading, hmore⟩
  · have := isWide_iff.mp hc
    omega
  · have hb : Utf8.isContinuation b = false := by
      have hmask : b &&& 0xC0 = 0xC0 := beq_iff_eq.mp hleading
      simp [Utf8.isContinuation, hmask]
    have hdrop : (bytes ++ b :: more.take (k - 1)).rdropWhile Utf8.isContinuation =
        bytes ++ [b] := by
      have hall : ∀ x ∈ more.take (k - 1), Utf8.isContinuation x = true :=
        fun x hx => hmore x (List.mem_of_mem_take hx)
      generalize more.take (k - 1) = cut at hall
      induction cut using List.reverseRecOn with
      | nil => exact List.rdropWhile_concat_neg _ _ _ (by simp [hb])
      | append_singleton cut x ih =>
          rw [← List.cons_append, ← List.append_assoc,
            List.rdropWhile_concat_pos _ _ _ (hall x (by simp))]
          exact ih fun y hy => hall y (List.mem_append_left _ hy)
    have htake : (String.utf8EncodeChar c).take k = b :: more.take (k - 1) := by
      rw [hbytes, ← Nat.succ_pred_eq_of_pos hk]
      rfl
    unfold dropIncompleteSequence
    rw [htake, hdrop]
    simp [hleading]

theorem dropIncompleteSequence_narrow {c : Char} (hc : isWide c = false) (bytes : List UInt8) :
    dropIncompleteSequence (bytes ++ String.utf8EncodeChar c) =
      bytes ++ String.utf8EncodeChar c := by
  rcases Utf8.utf8EncodeChar_cases c with ⟨-, b, hb, hcontinuation, hleading⟩ | ⟨hwide, -⟩
  · have hdrop : (bytes ++ [b]).rdropWhile Utf8.isContinuation = bytes ++ [b] :=
      List.rdropWhile_concat_neg _ _ _ (by simp [hcontinuation])
    unfold dropIncompleteSequence
    rw [hb, hdrop]
    simp [hleading]
  · rw [isWide_iff.mpr hwide] at hc
    cases hc

/-! ## What is kept -/

theorem isLongestWithin_utf8Size (n : ℕ) (text : List Char) :
    IsLongestWithin Char.utf8Size n text (affordable Char.utf8Size n text) :=
  isLongestWithin_affordable n text

theorem affordable_utf8Size_cases (n : ℕ) (text : List Char) :
    affordable Char.utf8Size n text = text ∨
      ∃ c rest, text = affordable Char.utf8Size n text ++ c :: rest ∧
        n < totalSize Char.utf8Size (affordable Char.utf8Size n text) + c.utf8Size :=
  affordable_cases n text

/-- **The cut on the bytes** keeps the characters that fit, but for one at the end of
the budget. -/
theorem decode_cut {text : List Char} {n : ℕ} (h : n < (Utf8.encode text).length) :
    Utf8.decodeIgnoring (dropIncompleteSequence ((Utf8.encode text).take n)) =
      keptCharacters n text := by
  have hwithin := (isLongestWithin_utf8Size n text).within
  rcases affordable_utf8Size_cases n text with hall | ⟨c, after, htext, hbeyond⟩
  · rw [Utf8.length_encode] at h
    rw [hall] at hwithin
    omega
  unfold keptCharacters
  generalize affordable Char.utf8Size n text = fitting at hwithin htext hbeyond
  rw [htext, Utf8.take_encode (by rw [Utf8.length_encode]; exact hwithin)
    (by rw [Utf8.length_encode]; exact hbeyond), Utf8.length_encode]
  by_cases hexact : totalSize Char.utf8Size fitting = n
  · rw [hexact, Nat.sub_self, List.take_zero, List.append_nil]
    -- the budget ends behind the last character that fits
    rcases List.eq_nil_or_concat fitting with rfl | ⟨before, d, rfl⟩
    · simp [dropIncompleteSequence, Utf8.decodeIgnoring, Utf8.decodeSkipping]
    · rw [List.concat_eq_append] at hexact
      rw [List.concat_eq_append, Utf8.encode_append, Utf8.encode_cons, Utf8.encode_nil,
        List.append_nil]
      cases hd : isWide d with
      | true =>
          have hwhole := dropIncompleteSequence_wide hd (Utf8.encode before) d.utf8Size_pos
          rw [List.take_of_length_le (String.length_utf8EncodeChar d).le] at hwhole
          rw [hwhole, Utf8.decodeIgnoring_encode]
          simp [hd, hexact]
      | false =>
          have hsplit : Utf8.encode before ++ String.utf8EncodeChar d =
              Utf8.encode (before ++ [d]) := by simp
          rw [dropIncompleteSequence_narrow hd, hsplit, Utf8.decodeIgnoring_encode]
          simp [hd]
  · -- it ends in the middle of the next one
    have hk : 0 < n - totalSize Char.utf8Size fitting := by omega
    have hwide : isWide c = true := isWide_iff.mpr (by omega)
    rw [dropIncompleteSequence_wide hwide _ hk, Utf8.decodeIgnoring_encode]
    simp [hexact]

theorem affordable_zero (text : List Char) : affordable Char.utf8Size 0 text = [] := by
  cases text with
  | nil => rfl
  | cons c text =>
      have := c.utf8Size_pos
      rw [affordable, if_neg (by omega)]

/-- The cut that is made character by character keeps the same. -/
theorem truncateFrom_eq (n : ℕ) (text : List Char) : truncateFrom n text = keptCharacters n text := by
  induction text generalizing n with
  | nil =>
      unfold truncateFrom keptCharacters affordable
      simp
  | cons c text ih =>
      have hwide := isWide_iff (c := c)
      have hpos := c.utf8Size_pos
      rw [truncateFrom]
      unfold keptCharacters
      rw [affordable]
      rcases Nat.lt_trichotomy c.utf8Size n with hlt | heq | hgt
      · rw [if_pos (Or.inl hlt), if_pos hlt.le, ih]
        unfold keptCharacters
        -- the rest of the budget is not used up by nothing
        cases hrest : affordable Char.utf8Size (n - c.utf8Size) text with
        | nil =>
            have hne : ¬ c.utf8Size = n := by omega
            simp [hne]
        | cons d rest =>
            have htotal : c.utf8Size + (d.utf8Size + totalSize Char.utf8Size rest) = n ↔
                d.utf8Size + totalSize Char.utf8Size rest = n - c.utf8Size := by omega
            simp only [totalSize_cons, htotal, List.getLast?_cons_cons, List.dropLast_cons_cons]
            split <;> rfl
      · rw [if_pos heq.le, heq, Nat.sub_self, affordable_zero]
        have hzero : truncateFrom 0 text = [] := by
          rw [ih]
          unfold keptCharacters
          rw [affordable_zero]
          simp
        by_cases hone : n = 1
        · have hnarrow : isWide c = false := by
            rw [← Bool.not_eq_true, hwide]
            omega
          simp [hone, hzero, hnarrow]
        · have hw : isWide c = true := hwide.mpr (by omega)
          simp [hone, hw, heq]
      · have hno : ¬ (c.utf8Size < n ∨ c.utf8Size = n ∧ n = 1) := by omega
        have hno' : ¬ c.utf8Size ≤ n := by omega
        rw [if_neg hno, if_neg hno']
        simp

/-- **The two descriptions of the cut agree.** -/
theorem truncateEncoded_eq (text : String) (maximumBytes : ℕ) :
    truncateEncoded text maximumBytes = truncateTextToByteBudget text maximumBytes := by
  unfold truncateEncoded truncateTextToByteBudget
  rw [← length_encode_toList]
  by_cases hfits : (Utf8.encode text.toList).length ≤ maximumBytes
  · by_cases hzero : maximumBytes = 0
    · rw [hzero, length_encode_toList, Nat.le_zero] at hfits
      rw [if_pos hzero, String.utf8ByteSize_eq_zero_iff.mp hfits]
      simp
    · simp only [if_neg hzero, if_pos hfits]
  · by_cases hzero : maximumBytes = 0
    · subst hzero
      rw [if_pos rfl, if_neg hfits, truncateFrom_eq]
      unfold keptCharacters
      rw [affordable_zero]
      simp
    · simp only [if_neg hzero, if_neg hfits]
      rw [decode_cut (Nat.lt_of_not_le hfits), truncateFrom_eq]

/-! ## Exactness -/

theorem not_cutsBehind_of_fits {text : String} {n : ℕ}
    (h : (Utf8.encode text.toList).length ≤ n) : ¬ CutsBehindCharacter text n := by
  rintro ⟨before, c, after, htext, hafter, hn, -⟩
  cases after with
  | nil => exact hafter rfl
  | cons d after =>
      have := d.utf8Size_pos
      rw [htext] at h
      simp at h hn
      omega

/-- A text that is too long is cut behind a character exactly if the longest prefix
that fits uses the budget up and ends with it. -/
theorem cutsBehind_iff {text : String} {n : ℕ} (h : n < (Utf8.encode text.toList).length) :
    CutsBehindCharacter text n ↔
      totalSize Char.utf8Size (affordable Char.utf8Size n text.toList) = n ∧
        (affordable Char.utf8Size n text.toList).getLast?.any isWide = true := by
  have hfits := isLongestWithin_utf8Size n text.toList
  constructor
  · rintro ⟨before, c, after, htext, -, hn, hwide⟩
    rw [Utf8.length_encode] at hn
    have hprefix : before ++ [c] <+: text.toList := ⟨after, by rw [htext]; simp⟩
    obtain ⟨more, hmore⟩ := hfits.longest _ hprefix hn.le
    have hwithin := hfits.within
    -- nothing fits behind it
    have hnil : more = [] := by
      cases more with
      | nil => rfl
      | cons d more =>
          have := d.utf8Size_pos
          rw [← hmore, totalSize_append, totalSize_cons] at hwithin
          omega
    rw [hnil, List.append_nil] at hmore
    rw [← hmore]
    exact ⟨hn, by simp [hwide]⟩
  · rintro ⟨hn, hlast⟩
    rcases affordable_utf8Size_cases n text.toList with hall | ⟨d, after, htext, -⟩
    · rw [hall, ← Utf8.length_encode] at hn
      omega
    · rcases List.eq_nil_or_concat (affordable Char.utf8Size n text.toList) with
        hnil | ⟨before, c, hconcat⟩
      · rw [hnil] at hlast
        cases hlast
      · rw [List.concat_eq_append] at hconcat
        rw [hconcat] at hn hlast htext
        refine ⟨before, c, d :: after, by rw [htext]; simp, List.cons_ne_nil _ _, ?_, ?_⟩
        · rw [Utf8.length_encode]
          exact hn
        · simpa using hlast

theorem toList_truncateEncoded {text : String} {n : ℕ}
    (h : n < (Utf8.encode text.toList).length) :
    (truncateEncoded text n).toList = keptCharacters n text.toList := by
  rw [truncateEncoded_eq]
  unfold truncateTextToByteBudget
  rw [← length_encode_toList, if_neg (Nat.not_le.mpr h), String.toList_ofList, truncateFrom_eq]

theorem truncateEncoded_of_fits {text : String} {n : ℕ}
    (h : (Utf8.encode text.toList).length ≤ n) : truncateEncoded text n = text := by
  rw [truncateEncoded_eq]
  unfold truncateTextToByteBudget
  rw [← length_encode_toList, if_pos h]

/-- **Truncation is exact** unless the budget ends right behind a character of
several bytes that the text goes on behind. -/
theorem truncation_exact_iff (text : String) (maximumBytes : ℕ) :
    TruncatesExactly text maximumBytes (truncateEncoded text maximumBytes) ↔
      ¬ CutsBehindCharacter text maximumBytes := by
  by_cases hfits : (Utf8.encode text.toList).length ≤ maximumBytes
  · refine iff_of_true ?_ (not_cutsBehind_of_fits hfits)
    rw [truncateEncoded_of_fits hfits]
    exact ⟨List.prefix_refl _, hfits, fun _ h _ => h, truncateEncoded_of_fits hfits⟩
  · have hlong := Nat.lt_of_not_le hfits
    have hlongest := isLongestWithin_utf8Size maximumBytes text.toList
    have hkept := toList_truncateEncoded hlong
    unfold keptCharacters at hkept
    rw [cutsBehind_iff hlong]
    constructor
    · rintro ⟨-, -, hmax, -⟩ hcut
      simp only [if_pos hcut] at hkept
      -- the character that is dropped would have fitted
      have hprefix := hmax _ hlongest.isPrefix
        (by rw [Utf8.length_encode]; exact hlongest.within)
      rw [hkept] at hprefix
      have hle := hprefix.length_le
      rw [List.length_dropLast] at hle
      have hnil : affordable Char.utf8Size maximumBytes text.toList = [] :=
        List.eq_nil_of_length_eq_zero (by omega)
      rw [hnil] at hcut
      cases hcut.2
    · intro hcut
      simp only [if_neg hcut] at hkept
      have hwithin : (Utf8.encode (truncateEncoded text maximumBytes).toList).length ≤
          maximumBytes := by
        rw [hkept, Utf8.length_encode]
        exact hlongest.within
      refine ⟨?_, hwithin, ?_, truncateEncoded_of_fits hwithin⟩
      · rw [hkept]
        exact hlongest.isPrefix
      · intro longer hprefix hlonger
        rw [Utf8.length_encode] at hlonger
        rw [hkept]
        exact hlongest.longest longer hprefix hlonger

/-- **A whole character is dropped**: of `éa` and two bytes nothing is left. -/
theorem fitting_character_dropped :
    truncateEncoded "éa" 2 = "" ∧ (Utf8.encode "é".toList).length = 2 ∧
      ¬ TruncatesExactly "éa" 2 (truncateEncoded "éa" 2) := by
  refine ⟨by decide +kernel, by decide +kernel, ?_⟩
  have hempty : truncateEncoded "éa" 2 = "" := by decide +kernel
  rintro ⟨-, -, hlongest, -⟩
  have hprefix := hlongest "é".toList ⟨"a".toList, by decide +kernel⟩ (by decide +kernel)
  rw [hempty] at hprefix
  exact absurd hprefix (by decide +kernel)

end MailboxService
