import MailboxService.Foundation.JsonText
import Mathlib.Tactic.SplitIfs

/-!
# Reading a dictionary of texts

An object whose values are texts, read from what `json.dumps` writes of it.
-/

namespace MailboxService.Foundation

namespace Json

/-! ## Texts -/

def unescape (c : Char) : Char :=
  if c = 'n' then '\n'
  else if c = 'r' then '\r'
  else if c = 't' then '\t'
  else if c = 'f' then '\x0c'
  else if c = 'b' then '\x08'
  else c

def hexValue (c : Char) : ℕ := if c.toNat < 58 then c.toNat - 48 else c.toNat - 87

/-- A text behind its opening quote, and what follows the closing one. -/
def readText : List Char → Option (List Char × List Char)
  | [] => none
  | '"' :: rest => some ([], rest)
  | '\\' :: 'u' :: _ :: _ :: a :: b :: rest =>
      (readText rest).map fun read =>
        (Char.ofNat (16 * hexValue a + hexValue b) :: read.1, read.2)
  | '\\' :: c :: rest => (readText rest).map fun read => (unescape c :: read.1, read.2)
  | c :: rest => (readText rest).map fun read => (c :: read.1, read.2)

theorem hexValue_hexDigit : ∀ n < 16,
    hexValue (Char.ofNat (if n < 10 then 48 + n else 87 + n)) = n := by
  decide

/-- A character that is written by its number is read back. -/
theorem readText_escaped {c : Char} (hsmall : c.toNat < 32) (rest : List Char) :
    readText ('\\' :: 'u' :: hexDigits 4 c.toNat ++ rest) =
      (readText rest).map fun read => (c :: read.1, read.2) := by
  have hhigh := hexValue_hexDigit (c.toNat / 16 % 16) (Nat.mod_lt _ (by decide))
  have hlow := hexValue_hexDigit (c.toNat % 16) (Nat.mod_lt _ (by decide))
  have hnumber : 16 * (c.toNat / 16 % 16) + c.toNat % 16 = c.toNat := by omega
  show ((readText rest).map fun read => (Char.ofNat (16 * _ + _) :: read.1, read.2)) = _
  rw [hhigh, hlow, hnumber, Char.ofNat_toNat]

/-- A character that is neither a quote nor a backslash stands for itself. -/
theorem readText_plain {c : Char} (hquote : c ≠ '"') (hescape : c ≠ '\\') (rest : List Char) :
    readText (c :: rest) = (readText rest).map fun read => (c :: read.1, read.2) := by
  rw [readText.eq_def]
  split
  · rename_i heq
    cases heq
  · rename_i heq
    cases heq
    exact absurd rfl hquote
  · rename_i heq
    cases heq
    exact absurd rfl hescape
  · rename_i heq
    cases heq
    exact absurd rfl hescape
  · rename_i heq
    cases heq
    rfl

theorem readText_dumpChar (c : Char) (rest : List Char) :
    readText (dumpChar c ++ rest) = (readText rest).map fun read => (c :: read.1, read.2) := by
  unfold dumpChar
  split_ifs with hmark hnewline hreturn htab hfeed hback hsmall
  · rcases hmark with rfl | rfl
    · rfl
    · rfl
  · rw [hnewline]
    rfl
  · rw [hreturn]
    rfl
  · rw [htab]
    rfl
  · rw [hfeed]
    rfl
  · rw [hback]
    rfl
  · exact readText_escaped hsmall rest
  · rw [not_or] at hmark
    exact readText_plain hmark.1 hmark.2 rest

theorem readText_dumps (text rest : List Char) :
    readText (text.flatMap dumpChar ++ '"' :: rest) = some (text, rest) := by
  induction text with
  | nil => rfl
  | cons c text ih =>
      rw [List.flatMap_cons, List.append_assoc, readText_dumpChar, ih]
      rfl

/-! ## Dictionaries -/

/-- The entries of a dictionary, behind the brace or the comma in front of them. The
first argument bounds their number. -/
def readTexts : ℕ → List Char → Option (List (String × String))
  | 0, _ => none
  | bound + 1, text =>
      match text with
      | '"' :: rest =>
          match readText rest with
          | some (key, ':' :: ' ' :: '"' :: rest) =>
              match readText rest with
              | some (value, ',' :: ' ' :: rest) =>
                  (readTexts bound rest).map ((.ofList key, .ofList value) :: ·)
              | some (value, ['\x7d']) => some [(.ofList key, .ofList value)]
              | _ => none
          | _ => none
      | _ => none

/-- A dictionary of texts, as it is written by `json.dumps`. -/
def loadTexts : List Char → Option (List (String × String))
  | '\x7b' :: rest => if rest = ['\x7d'] then some [] else readTexts rest.length rest
  | _ => none

def ofTexts (texts : List (String × String)) : Json :=
  .obj (texts.map fun entry => (entry.1, .str entry.2))

def entryText (entry : String × String) : List Char :=
  dumpText entry.1 ++ ": ".toList ++ dumpText entry.2

theorem dumps_ofTexts (texts : List (String × String)) :
    dumps (ofTexts texts) =
      '\x7b' :: ", ".toList.intercalate (texts.map entryText) ++ ['\x7d'] := by
  have hfields : dumpFields (texts.map fun entry => (entry.1, .str entry.2)) =
      texts.map entryText := by
    induction texts with
    | nil => rfl
    | cons entry rest ih =>
        rw [List.map_cons, List.map_cons, dumpFields, ih]
        rfl
  unfold ofTexts
  rw [dumps, hfields]

theorem entryText_append (entry : String × String) (tail : List Char) :
    entryText entry ++ tail =
      '"' :: (entry.1.toList.flatMap dumpChar ++ '"' :: ':' :: ' ' :: '"' ::
        (entry.2.toList.flatMap dumpChar ++ '"' :: tail)) := by
  simp [entryText, dumpText]

theorem readTexts_last (bound : ℕ) (entry : String × String) :
    readTexts (bound + 1) (entryText entry ++ ['\x7d']) = some [entry] := by
  rw [entryText_append, readTexts]
  simp only [readText_dumps, String.ofList_toList]

theorem readTexts_more (bound : ℕ) (entry : String × String) (rest : List Char) :
    readTexts (bound + 1) (entryText entry ++ (',' :: ' ' :: rest)) =
      (readTexts bound rest).map (entry :: ·) := by
  rw [entryText_append, readTexts]
  simp only [readText_dumps, String.ofList_toList]

theorem readTexts_intercalate (entry : String × String) (texts : List (String × String))
    {bound : ℕ} (hbound : texts.length < bound) :
    readTexts bound (", ".toList.intercalate ((entry :: texts).map entryText) ++ ['\x7d']) =
      some (entry :: texts) := by
  induction texts generalizing entry bound with
  | nil =>
      obtain ⟨bound, rfl⟩ := Nat.exists_eq_add_one.mpr hbound
      rw [List.map_singleton, List.intercalate_singleton]
      exact readTexts_last bound entry
  | cons next texts ih =>
      obtain ⟨bound, rfl⟩ := Nat.exists_eq_add_one.mpr (Nat.zero_lt_of_lt hbound)
      have hrest := ih next (Nat.lt_of_succ_lt_succ hbound)
      rw [List.map_cons, List.map_cons, List.intercalate_cons_cons, List.append_assoc,
        List.append_assoc]
      show readTexts (bound + 1) (entryText entry ++ (',' :: ' ' ::
        (", ".toList.intercalate ((next :: texts).map entryText) ++ ['\x7d']))) = _
      rw [readTexts_more, hrest]
      rfl

theorem length_lt_intercalate (entry : String × String) (texts : List (String × String)) :
    texts.length <
      (", ".toList.intercalate ((entry :: texts).map entryText) ++ ['\x7d']).length := by
  induction texts generalizing entry with
  | nil =>
      rw [List.length_append]
      exact Nat.succ_pos _
  | cons next texts ih =>
      have hrest := ih next
      rw [List.map_cons, List.map_cons, List.intercalate_cons_cons, List.append_assoc,
        List.append_assoc, List.length_append, List.length_append, List.length_cons]
      have hseparator : ", ".toList.length = 2 := rfl
      rw [List.map_cons] at hrest
      omega

/-- **A dictionary of texts is read back** as it was written. -/
theorem loadTexts_dumps (texts : List (String × String)) :
    loadTexts (dumps (ofTexts texts)) = some texts := by
  rw [dumps_ofTexts]
  cases texts with
  | nil => rfl
  | cons entry texts =>
      have hread := readTexts_intercalate entry texts (length_lt_intercalate entry texts)
      rw [List.cons_append]
      generalize ", ".toList.intercalate ((entry :: texts).map entryText) ++ ['\x7d'] = rest
        at hread ⊢
      have hmore : rest ≠ ['\x7d'] := by
        rintro rfl
        cases hread
      show (if rest = ['\x7d'] then some [] else readTexts rest.length rest) = _
      rw [if_neg hmore, hread]

end Json

end MailboxService.Foundation
