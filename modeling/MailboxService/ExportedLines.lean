import MailboxService.MailboxImport

/-!
# Exported lines

An export joins what is stored with `----` and line feeds, with no escaping.
What the import's parser makes of it is decided mailbox by mailbox: the text of
each is a block of lines of its own, and the block reads back as the stored
values exactly if these are `Exportable`: no separator in the address, no
hyphen at the end of the first three values, no white space around the refresh
token and no line boundary in it. The rules by which values come in
(`ImportedSegment`, `AdmittedToken`) do not imply this.
-/

namespace MailboxService

open Foundation

section

variable [ImportPlatform]

/-! ## Values -/

def ValidEmail (s : String) : Prop := ImportPlatform.validateEmail s = some s

/-- A value that an import takes from a line. -/
structure ImportedSegment (s : String) : Prop where
  ne_empty : s ≠ ""
  trimmed : Text.Trimmed s.toList
  free : ¬ segmentSeparator.toList <:+: s.toList
  oneLine : ∀ c ∈ s.toList, Text.isLineBoundary c = false

/-- A refresh token that passes the check of a write-back, before or after it is
stripped. -/
structure AdmittedToken (s : String) : Prop where
  not_blank : Text.strip s ≠ ""
  free : ¬ segmentSeparator.toList <:+: s.toList
  no_feed : '\n' ∉ s.toList
  no_return : '\r' ∉ s.toList

/-- The condition under which an export of the values reads back. -/
structure MailboxCredentials.Exportable (c : MailboxCredentials) : Prop where
  email_free : ¬ segmentSeparator.toList <:+: c.primaryEmail.toList
  email_end : c.primaryEmail.toList.getLast? ≠ some '-'
  password_end : c.mailPassword.toList.getLast? ≠ some '-'
  clientId_end : c.clientId.toList.getLast? ≠ some '-'
  token_trimmed : Text.Trimmed c.refreshToken.toList
  token_oneLine : ∀ ch ∈ c.refreshToken.toList, Text.isLineBoundary ch = false

structure MailboxCredentials.Storable (c : MailboxCredentials) : Prop where
  email : ValidEmail c.primaryEmail
  mailPassword : ImportedSegment c.mailPassword
  clientId : ImportedSegment c.clientId
  refreshToken : AdmittedToken c.refreshToken

theorem ValidEmail.ne_empty {s : String} (h : ValidEmail s) : s ≠ "" :=
  (ImportPlatform.validateEmail_printable s s h).1

theorem ValidEmail.not_space {s : String} (h : ValidEmail s) :
    ∀ c ∈ s.toList, PythonText.isSpace c = false := by
  intro c hc
  exact ((ImportPlatform.validateEmail_printable s s h).2 c hc).1

theorem ValidEmail.trimmed {s : String} (h : ValidEmail s) : Text.Trimmed s.toList := by
  constructor
  · intro c hc
    exact h.not_space c (List.mem_of_mem_head? hc)
  · intro c hc
    exact h.not_space c (List.mem_of_mem_getLast? hc)

theorem not_boundary_of_not_space {c : Char} (h : PythonText.isSpace c = false) :
    Text.isLineBoundary c = false := by
  by_contra hboundary
  rw [Bool.not_eq_false] at hboundary
  rw [ImportPlatform.boundary_space c hboundary] at h
  cases h

theorem ImportedSegment.admittedToken {s : String} (h : ImportedSegment s) :
    AdmittedToken s := by
  constructor
  · rw [Text.strip_of_trimmed h.trimmed]
    exact h.ne_empty
  · exact h.free
  · intro hfeed
    cases h.oneLine _ hfeed
  · intro hreturn
    cases h.oneLine _ hreturn

theorem AdmittedToken.strip {s : String} (h : AdmittedToken s) :
    AdmittedToken (Text.strip s) := by
  have hpart := Text.strip_part s
  constructor
  · rw [Text.strip_of_trimmed (Text.trimmed_strip s)]
    exact h.not_blank
  · intro hsep
    exact h.free (hsep.trans hpart)
  · intro hfeed
    exact h.no_feed (hpart.subset hfeed)
  · intro hreturn
    exact h.no_return (hpart.subset hreturn)

omit [ImportPlatform] in
theorem validateRefreshToken_ok [PythonText] {value token : String}
    (h : validateRefreshToken value = .ok token) :
    token = Text.strip value ∧ Text.strip value ≠ "" ∧ '\n' ∉ value.toList ∧
      '\r' ∉ value.toList ∧ ¬ segmentSeparator.toList <:+: value.toList := by
  unfold validateRefreshToken at h
  split at h
  · cases h
  split at h
  · cases h
  split at h
  · cases h
  rename_i hforbidden
  simp only [not_or] at hforbidden
  obtain ⟨hfeed, hreturn, hsep⟩ := hforbidden
  split at h
  · cases h
  · rename_i hblank
    cases h
    exact ⟨rfl, hblank, hfeed, hreturn, hsep⟩

theorem admittedToken_of_validated {value token : String}
    (h : validateRefreshToken value = .ok token) : AdmittedToken value := by
  obtain ⟨-, hblank, hfeed, hreturn, hsep⟩ := validateRefreshToken_ok h
  exact ⟨hblank, hsep, hfeed, hreturn⟩

/-! ## What a line gives -/

omit [ImportPlatform] in
theorem map_eq_four {α β : Type*} {f : α → β} {l : List α} {a b c d : β}
    (h : l.map f = [a, b, c, d]) :
    ∃ a' b' c' d', l = [a', b', c', d'] ∧ f a' = a ∧ f b' = b ∧ f c' = c ∧ f d' = d := by
  obtain ⟨a', l, rfl, ha, h⟩ := List.map_eq_cons_iff.mp h
  obtain ⟨b', l, rfl, hb, h⟩ := List.map_eq_cons_iff.mp h
  obtain ⟨c', l, rfl, hc, h⟩ := List.map_eq_cons_iff.mp h
  obtain ⟨d', l, rfl, hd, h⟩ := List.map_eq_cons_iff.mp h
  rw [List.map_eq_nil_iff] at h
  subst h
  exact ⟨a', b', c', d', rfl, ha, hb, hc, hd⟩

theorem parseMailboxImportLine_eq_ok {lineNumber : ℕ} {rawLine : String}
    {c : MailboxCredentials} :
    parseMailboxImportLine lineNumber rawLine = .ok c ↔
      ∃ email password clientId token,
        Text.split (Text.lstripChar (Text.strip rawLine) '\ufeff') segmentSeparator =
          [email, password, clientId, token] ∧
        Text.strip email ≠ "" ∧ Text.strip password ≠ "" ∧ Text.strip clientId ≠ "" ∧
        Text.strip token ≠ "" ∧
        ImportPlatform.validateEmail (Text.strip email) = some c.primaryEmail ∧
        c.mailPassword = Text.strip password ∧ c.clientId = Text.strip clientId ∧
        c.refreshToken = Text.strip token := by
  unfold parseMailboxImportLine
  constructor
  · intro h
    dsimp only at h
    split at h
    · rename_i segments primaryEmail mailPassword clientId refreshToken hsegments
      obtain ⟨email, password, client, token, hsplit, rfl, rfl, rfl, rfl⟩ :=
        map_eq_four hsegments
      split at h
      · cases h
      rename_i hne
      simp only [not_or] at hne
      obtain ⟨hemail, hpassword, hclient, htoken⟩ := hne
      split at h
      · cases h
      · rename_i normalized hvalid
        cases h
        exact ⟨email, password, client, token, hsplit, hemail, hpassword, hclient, htoken,
          hvalid, rfl, rfl, rfl⟩
    · cases h
  · rintro ⟨email, password, client, token, hsplit, hemail, hpassword, hclient, htoken, hvalid,
      hmail, hid, hrefresh⟩
    simp only [hsplit, List.map_cons, List.map_nil]
    rw [if_neg (by simp [hemail, hpassword, hclient, htoken]), hvalid]
    simp only [← hmail, ← hid, ← hrefresh]

theorem parseMailboxImportLine_storable {lineNumber : ℕ} {rawLine : String}
    {c : MailboxCredentials} (h : parseMailboxImportLine lineNumber rawLine = .ok c)
    (hline : ∀ ch ∈ rawLine.toList, Text.isLineBoundary ch = false) :
    ValidEmail c.primaryEmail ∧ ImportedSegment c.mailPassword ∧
      ImportedSegment c.clientId ∧ ImportedSegment c.refreshToken := by
  obtain ⟨email, password, client, token, hsplit, -, hpassword, hclient, htoken, hvalid,
    hmail, hid, hrefresh⟩ := parseMailboxImportLine_eq_ok.mp h
  have hsegment : ∀ part, part ∈ [email, password, client, token] → Text.strip part ≠ "" →
      ImportedSegment (Text.strip part) := by
    intro part hpart hne
    rw [← hsplit, Text.mem_split] at hpart
    have hsep : segmentSeparator.toList ≠ [] := by decide
    constructor
    · exact hne
    · exact Text.trimmed_strip part
    · intro hfound
      exact Delimited.free_of_mem_split hsep hpart (hfound.trans (Text.strip_part part))
    · intro ch hch
      apply hline
      have hch' := Delimited.subset_of_mem_split hpart ((Text.strip_part part).subset hch)
      exact (Text.strip_part rawLine).subset (Text.subset_lstripChar _ _ hch')
  refine ⟨ImportPlatform.validateEmail_normalized _ _ hvalid, ?_, ?_, ?_⟩
  · rw [hmail]
    exact hsegment password (by simp) hpassword
  · rw [hid]
    exact hsegment client (by simp) hclient
  · rw [hrefresh]
    exact hsegment token (by simp) htoken

/-! ## One exported line -/

omit [ImportPlatform] in
theorem toList_formatMailboxImportLine (c : MailboxCredentials) :
    (formatMailboxImportLine c).toList =
      segmentSeparator.toList.intercalate
        [c.primaryEmail.toList, c.mailPassword.toList, c.clientId.toList,
          c.refreshToken.toList] := by
  unfold formatMailboxImportLine
  rw [String.toList_intercalate]
  rfl

omit [ImportPlatform] in
/-- Four joined segments, the last one on its own. -/
theorem intercalate_four (sep a b c d : List Char) :
    sep.intercalate [a, b, c, d] = ((a ++ (sep ++ b)) ++ (sep ++ c)) ++ (sep ++ d) := by
  simp [List.intercalate_cons_cons, List.append_assoc]

omit [ImportPlatform] in
theorem separator_hyphens : segmentSeparator.toList = List.replicate 4 '-' := rfl

theorem separator_end : ∃ c ∈ segmentSeparator.toList.getLast?, PythonText.isSpace c = false :=
  ⟨'-', rfl, ImportPlatform.hyphen_not_space⟩

/-- What the parser has to split: nothing is stripped from the line of values
with a trimmed refresh token. -/
theorem normalized_format {c : MailboxCredentials} (hemail : ValidEmail c.primaryEmail)
    (htoken : Text.Trimmed c.refreshToken.toList) (hne : c.refreshToken ≠ "") :
    Text.lstripChar (Text.strip (formatMailboxImportLine c)) '\ufeff' =
      formatMailboxImportLine c := by
  have hlist : (formatMailboxImportLine c).toList = c.primaryEmail.toList ++
      (segmentSeparator.toList ++ (c.mailPassword.toList ++ (segmentSeparator.toList ++
        (c.clientId.toList ++ segmentSeparator.toList))) ++ c.refreshToken.toList) := by
    rw [toList_formatMailboxImportLine, intercalate_four]
    simp only [List.append_assoc]
  have hemail' : c.primaryEmail.toList ≠ [] := by simpa using hemail.ne_empty
  have htrimmed : Text.Trimmed (formatMailboxImportLine c).toList := by
    rw [hlist]
    exact Text.trimmed_between hemail.trimmed htoken hemail' (by simpa using hne) _
  rw [Text.strip_of_trimmed htrimmed]
  apply Text.lstripChar_of_head
  intro hmark
  rw [hlist, List.head?_append_of_ne_nil _ hemail'] at hmark
  exact ((ImportPlatform.validateEmail_printable _ _ hemail).2 _
    (List.mem_of_mem_head? hmark)).2 rfl

/-- **Line lemma.** The line of storable values reads back as these values
exactly if no separator is found too early and the refresh token is trimmed. -/
theorem parse_format_iff {c : MailboxCredentials} (h : c.Storable) (lineNumber : ℕ) :
    parseMailboxImportLine lineNumber (formatMailboxImportLine c) = .ok c ↔
      Text.Trimmed c.refreshToken.toList ∧
        ∀ part ∈ [c.primaryEmail.toList, c.mailPassword.toList, c.clientId.toList],
          Delimited.Uncut segmentSeparator.toList part := by
  have hsep : segmentSeparator.toList ≠ [] := by decide
  rw [parseMailboxImportLine_eq_ok]
  constructor
  · rintro ⟨email, password, client, token, hsplit, hemail, hpassword, hclient, htoken, -,
      hmail, hid, hrefresh⟩
    have htrimmed : Text.Trimmed c.refreshToken.toList := by
      rw [hrefresh]
      exact Text.trimmed_strip token
    rw [normalized_format h.email htrimmed (by rw [hrefresh]; exact htoken)] at hsplit
    have hparts : Delimited.split segmentSeparator.toList (formatMailboxImportLine c).toList =
        [email.toList, password.toList, client.toList] ++ [token.toList] := by
      have hmap := congrArg (List.map String.toList) hsplit
      simpa [Text.split] using hmap
    obtain ⟨hjoin, huncut, -⟩ := (Delimited.split_eq_iff hsep).mp hparts
    refine ⟨htrimmed, ?_⟩
    -- the segments are compared from the last one on
    rw [toList_formatMailboxImportLine, List.cons_append, List.cons_append, List.cons_append,
      List.nil_append, intercalate_four, intercalate_four, hrefresh] at hjoin
    obtain ⟨-, hjoin⟩ := Text.last_segment_eq separator_end htoken hjoin
    rw [hid] at hjoin
    obtain ⟨hclient', hjoin⟩ := Text.last_segment_eq separator_end hclient hjoin
    rw [hmail] at hjoin
    obtain ⟨hpassword', hjoin⟩ := Text.last_segment_eq separator_end hpassword hjoin
    rw [hjoin, hmail, hid, ← hclient', ← hpassword']
    exact huncut
  · rintro ⟨htrimmed, huncut⟩
    have hne : c.refreshToken ≠ "" := by
      intro hempty
      apply h.refreshToken.not_blank
      rw [hempty]
      rfl
    refine ⟨c.primaryEmail, c.mailPassword, c.clientId, c.refreshToken, ?_, ?_⟩
    · rw [normalized_format h.email htrimmed hne]
      have hparts : Delimited.split segmentSeparator.toList
          (formatMailboxImportLine c).toList =
          [c.primaryEmail.toList, c.mailPassword.toList, c.clientId.toList] ++
            [c.refreshToken.toList] := by
        rw [Delimited.split_eq_iff hsep]
        exact ⟨toList_formatMailboxImportLine c, huncut, h.refreshToken.free⟩
      unfold Text.split
      rw [hparts]
      simp
    · rw [Text.strip_of_trimmed h.email.trimmed, Text.strip_of_trimmed h.mailPassword.trimmed,
        Text.strip_of_trimmed h.clientId.trimmed, Text.strip_of_trimmed htrimmed]
      exact ⟨h.email.ne_empty, h.mailPassword.ne_empty, h.clientId.ne_empty, hne, h.email,
        rfl, rfl, rfl⟩

/-- Of storable values only the ends of the first three, the separator in the
address and the white space in the refresh token can be in the way. -/
theorem exportable_iff {c : MailboxCredentials} (h : c.Storable) :
    c.Exportable ↔
      (Text.Trimmed c.refreshToken.toList ∧
        ∀ part ∈ [c.primaryEmail.toList, c.mailPassword.toList, c.clientId.toList],
          Delimited.Uncut segmentSeparator.toList part) ∧
      ∀ ch ∈ c.refreshToken.toList, Text.isLineBoundary ch = false := by
  simp only [List.forall_mem_cons, List.not_mem_nil, false_imp_iff, implies_true, and_true,
    separator_hyphens, Delimited.uncut_replicate_iff]
  constructor
  · intro he
    refine ⟨⟨he.token_trimmed, ⟨he.email_free, he.email_end⟩, ?_, ?_⟩, he.token_oneLine⟩
    · exact ⟨h.mailPassword.free, he.password_end⟩
    · exact ⟨h.clientId.free, he.clientId_end⟩
  · rintro ⟨⟨htrimmed, ⟨hfree, hemail⟩, ⟨-, hpassword⟩, -, hclient⟩, hline⟩
    exact ⟨hfree, hemail, hpassword, hclient, htrimmed, hline⟩

/-! ## Blocks of lines -/

omit [ImportPlatform] in
def lineBlock (c : MailboxCredentials) : List String :=
  (Text.cutLines false ((formatMailboxImportLine c).toList ++ ['\n'])).map .ofList

/-- What an import reads in lines that are numbered from `n`. -/
def parsedFrom (n : ℕ) (lines : List String) :
    List (Except MailboxImportLineError MailboxCredentials) :=
  ((lines.zipIdx n).filterMap fun line =>
    if Text.strip line.1 = "" then none else some (line.2, line.1)).map fun line =>
      parseMailboxImportLine line.1 line.2

theorem parsedFrom_append (n : ℕ) (lines more : List String) :
    parsedFrom n (lines ++ more) =
      parsedFrom n lines ++ parsedFrom (n + lines.length) more := by
  unfold parsedFrom
  rw [List.zipIdx_append, List.filterMap_append, List.map_append]

/-- Every line that is not blank is read. -/
theorem length_parsedFrom (n : ℕ) (lines : List String) :
    (parsedFrom n lines).length = lines.countP fun line => Text.strip line ≠ "" := by
  unfold parsedFrom
  rw [List.length_map]
  induction lines generalizing n with
  | nil => rfl
  | cons line lines ih =>
      rw [List.zipIdx_cons, List.filterMap_cons, List.countP_cons]
      by_cases hblank : Text.strip line = ""
      · simp [hblank, ih]
      · simp [hblank, ih]

theorem countP_cutLines_pos {l : List Char} {ch : Char} (hch : ch ∈ l)
    (hspace : PythonText.isSpace ch = false) (afterReturn : Bool) :
    0 < ((Text.cutLines afterReturn l).map String.ofList).countP
      fun line => Text.strip line ≠ "" := by
  obtain ⟨line, hline, hmem⟩ :=
    Text.exists_mem_cutLines hch (not_boundary_of_not_space hspace) afterReturn
  rw [List.countP_pos_iff]
  refine ⟨String.ofList line, List.mem_map_of_mem hline, ?_⟩
  rw [decide_eq_true_eq, ne_eq, Text.strip_eq_empty]
  intro hall
  rw [hall ch (by rw [String.toList_ofList]; exact hmem)] at hspace
  cases hspace

omit [ImportPlatform] in
/-- The text of an export, character by character. -/
theorem toList_exportContent (lines : List String) :
    (exportContent lines).toList = lines.flatMap fun line => line.toList ++ ['\n'] := by
  unfold exportContent
  split
  · rename_i hnil
    rw [hnil]
    rfl
  · rename_i hne
    induction lines with
    | nil => exact absurd rfl hne
    | cons line lines ih =>
        cases lines with
        | nil => simp
        | cons next lines =>
            have ih' := ih (List.cons_ne_nil next lines)
            rw [String.toList_append] at ih' ⊢
            rw [String.intercalate_cons_cons, String.toList_append, String.toList_append,
              List.append_assoc, ih', List.flatMap_cons]
            rfl

omit [ImportPlatform] in
theorem splitlines_exportContent (cs : List MailboxCredentials) :
    Text.splitlines (exportContent (cs.map formatMailboxImportLine)) = cs.flatMap lineBlock := by
  unfold Text.splitlines
  rw [toList_exportContent]
  induction cs with
  | nil => rfl
  | cons c cs ih =>
      have hfeed : Text.isLineBoundary '\n' = true := by decide
      have hcut := Text.cutLines_append_boundary hfeed (formatMailboxImportLine c).toList
        ((cs.map formatMailboxImportLine).flatMap fun line => line.toList ++ ['\n']) false
      rw [List.map_cons, List.flatMap_cons, List.append_assoc, List.singleton_append, hcut,
        List.map_append, List.flatMap_cons]
      exact congrArg _ ih

theorem parsedFrom_lineBlock_pos {c : MailboxCredentials} (h : c.Storable) (n : ℕ) :
    0 < (parsedFrom n (lineBlock c)).length := by
  have hne : c.primaryEmail.toList ≠ [] := by simpa using h.email.ne_empty
  obtain ⟨ch, hch⟩ := List.exists_mem_of_ne_nil _ hne
  rw [length_parsedFrom]
  refine countP_cutLines_pos ?_ (h.email.not_space ch hch) false
  rw [toList_formatMailboxImportLine, intercalate_four]
  simp only [List.mem_append]
  exact Or.inl (Or.inl (Or.inl (Or.inl hch)))

theorem lineBlock_of_oneLine {c : MailboxCredentials} (h : c.Storable)
    (hline : ∀ ch ∈ c.refreshToken.toList, Text.isLineBoundary ch = false) :
    lineBlock c = [formatMailboxImportLine c] := by
  unfold lineBlock
  rw [Text.cutLines_feed]
  · rw [List.map_singleton, String.ofList_toList]
  · intro ch hch
    have hseparator : ch ∈ segmentSeparator.toList → Text.isLineBoundary ch = false := by
      rw [separator_hyphens]
      intro hmem
      rw [List.eq_of_mem_replicate hmem]
      rfl
    rw [toList_formatMailboxImportLine, intercalate_four] at hch
    simp only [List.mem_append] at hch
    rcases hch with ((hch | hch | hch) | hch | hch) | hch | hch
    · exact not_boundary_of_not_space (h.email.not_space ch hch)
    · exact hseparator hch
    · exact h.mailPassword.oneLine ch hch
    · exact hseparator hch
    · exact h.clientId.oneLine ch hch
    · exact hseparator hch
    · exact hline ch hch

theorem two_le_of_boundary {c : MailboxCredentials} (h : c.Storable)
    (htrimmed : Text.Trimmed c.refreshToken.toList) {b : Char}
    (hb : b ∈ c.refreshToken.toList) (hboundary : Text.isLineBoundary b = true) (n : ℕ) :
    2 ≤ (parsedFrom n (lineBlock c)).length := by
  obtain ⟨x, y, htoken⟩ := List.append_of_mem hb
  have hspace : PythonText.isSpace b = true := ImportPlatform.boundary_space b hboundary
  have hreturn : decide (b = '\r') = false := by
    rw [decide_eq_false_iff_not]
    rintro rfl
    exact h.refreshToken.no_return hb
  -- the last character of the token comes after the boundary
  have hy : y ≠ [] := by
    rintro rfl
    have hlast := htrimmed.2 b (by rw [htoken]; simp)
    rw [hspace] at hlast
    cases hlast
  have hlast : PythonText.isSpace (y.getLast hy) = false := by
    apply htrimmed.2
    rw [htoken, List.getLast?_append_of_ne_nil _ (List.cons_ne_nil b y),
      List.getLast?_cons_of_ne_nil hy, List.getLast?_eq_some_getLast hy]
    rfl
  obtain ⟨ch, hch⟩ := List.exists_mem_of_ne_nil c.primaryEmail.toList
    (by simpa using h.email.ne_empty)
  have hlist : (formatMailboxImportLine c).toList ++ ['\n'] =
      (c.primaryEmail.toList ++ (segmentSeparator.toList ++ (c.mailPassword.toList ++
        (segmentSeparator.toList ++ (c.clientId.toList ++ (segmentSeparator.toList ++ x)))))) ++
        b :: (y ++ ['\n']) := by
    rw [toList_formatMailboxImportLine, intercalate_four, htoken]
    simp only [List.append_assoc, List.cons_append]
  rw [length_parsedFrom]
  unfold lineBlock
  rw [hlist, Text.cutLines_append_boundary hboundary, List.map_append, List.countP_append, hreturn]
  have hfirst := countP_cutLines_pos
    (l := c.primaryEmail.toList ++ (segmentSeparator.toList ++ (c.mailPassword.toList ++
        (segmentSeparator.toList ++ (c.clientId.toList ++ (segmentSeparator.toList ++ x))))) ++ [b])
    (List.mem_append_left _ (List.mem_append_left _ hch)) (h.email.not_space ch hch) false
  have hsecond := countP_cutLines_pos (l := y ++ ['\n'])
    (List.mem_append_left _ (List.getLast_mem hy)) hlast false
  omega

/-- **Block lemma.** The block of storable values reads back as these values
exactly if they are exportable. -/
theorem parsedFrom_lineBlock_iff {c : MailboxCredentials} (h : c.Storable) (n : ℕ) :
    parsedFrom n (lineBlock c) = [.ok c] ↔ c.Exportable := by
  have hone : lineBlock c = [formatMailboxImportLine c] →
      parsedFrom n (lineBlock c) = [parseMailboxImportLine n (formatMailboxImportLine c)] := by
    intro hblock
    have hpos := parsedFrom_lineBlock_pos h n
    rw [hblock] at hpos ⊢
    unfold parsedFrom at hpos ⊢
    by_cases hblank : Text.strip (formatMailboxImportLine c) = ""
    · simp [hblank] at hpos
    · simp [hblank]
  rw [exportable_iff h, ← parse_format_iff h n]
  constructor
  · intro hparsed
    have hmem : Except.ok c ∈ parsedFrom n (lineBlock c) := by
      rw [hparsed]
      exact List.mem_singleton_self _
    obtain ⟨line, -, hline⟩ := List.mem_map.mp hmem
    obtain ⟨_, _, _, token, -, -, -, -, -, -, -, -, hrefresh⟩ :=
      parseMailboxImportLine_eq_ok.mp hline
    have htrimmed : Text.Trimmed c.refreshToken.toList := by
      rw [hrefresh]
      exact Text.trimmed_strip token
    have honeLine : ∀ ch ∈ c.refreshToken.toList, Text.isLineBoundary ch = false := by
      intro ch hch
      by_contra hboundary
      rw [Bool.not_eq_false] at hboundary
      have htwo := two_le_of_boundary h htrimmed hch hboundary n
      rw [hparsed, List.length_singleton] at htwo
      omega
    rw [hone (lineBlock_of_oneLine h honeLine), List.cons.injEq] at hparsed
    exact ⟨hparsed.1, honeLine⟩
  · rintro ⟨hparsed, honeLine⟩
    rw [hone (lineBlock_of_oneLine h honeLine), hparsed]

/-- Every mailbox of an export is read from its block: an export reads back as
the values that were exported exactly if all of them are exportable. -/
theorem parsedFrom_blocks_iff {cs : List MailboxCredentials} (h : ∀ c ∈ cs, c.Storable)
    (n : ℕ) :
    parsedFrom n (cs.flatMap lineBlock) = cs.map .ok ↔ ∀ c ∈ cs, c.Exportable := by
  have hlength : ∀ (cs : List MailboxCredentials) (n : ℕ), (∀ c ∈ cs, c.Storable) →
      cs.length ≤ (parsedFrom n (cs.flatMap lineBlock)).length := by
    intro cs
    induction cs with
    | nil =>
        intro n _
        exact Nat.zero_le _
    | cons c cs ih =>
        intro n hcs
        rw [List.forall_mem_cons] at hcs
        have hpos := parsedFrom_lineBlock_pos hcs.1 n
        have hrest := ih (n + (lineBlock c).length) hcs.2
        rw [List.flatMap_cons, parsedFrom_append, List.length_append, List.length_cons]
        omega
  induction cs generalizing n with
  | nil => exact ⟨fun _ c hc => absurd hc List.not_mem_nil, fun _ => rfl⟩
  | cons c cs ih =>
      rw [List.forall_mem_cons] at h
      have hrest : parsedFrom (n + (lineBlock c).length) (cs.flatMap lineBlock) =
          cs.map .ok ↔ ∀ c ∈ cs, c.Exportable := ih h.2 _
      rw [List.flatMap_cons, parsedFrom_append, List.map_cons, List.forall_mem_cons,
        ← parsedFrom_lineBlock_iff h.1 n, ← hrest]
      constructor
      · intro hparsed
        have hpos := parsedFrom_lineBlock_pos h.1 n
        have hmore := hlength cs (n + (lineBlock c).length) h.2
        have hcount := congrArg List.length hparsed
        rw [List.length_append, List.length_cons, List.length_map] at hcount
        have hblock : (parsedFrom n (lineBlock c)).length =
            [(Except.ok c : Except MailboxImportLineError MailboxCredentials)].length := by
          rw [List.length_singleton]
          omega
        exact List.append_inj hparsed hblock
      · rintro ⟨hblock, hrest⟩
        rw [hblock, hrest]
        rfl

end

end MailboxService
