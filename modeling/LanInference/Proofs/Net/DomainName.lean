/-
# Names of hosts read back

A name in the form that it is brought into is read as itself: its characters stand for themselves,
and a label that was coded gives back its text. The one thing in the way is the length of a code. A
label of up to a thousand characters is coded, but a code of more than two thousand is not read, so
a name with such a label is written and refused when it is read again.

Key definitions: `HasReadableCodes`.
Key theorems: `labelText?_asciiLabel?`, `ofText?_asciiForm?`, `ofText?_ofText?`.
-/
import LanInference.Net.DomainName
import LanInference.Proofs.Net.Punycode
import LanInference.Proofs.Text.Parts
import Mathlib.Data.Bool.AllAny

namespace LanInference

namespace DomainName

open Text NameMapping

/-! ### Characters that stand for themselves -/

theorem isPlain_of_ascii {c : Char} (h : c.toNat < 0x80) : isPlain c = true ↔ c.toLower = c := by
  unfold isPlain meaning?
  rw [if_pos h]
  simp

theorem isLowerAscii_iff {name : List Char} :
    isLowerAscii name = true ↔ ∀ c ∈ name, c.toNat < 0x80 ∧ isPlain c = true := by
  unfold isLowerAscii isAscii
  simp only [List.all_eq_true, Bool.and_eq_true, decide_eq_true_iff, beq_iff_eq]
  refine forall₂_congr fun c _ => ⟨fun h => ?_, fun h => ?_⟩
  · exact ⟨h.1, (isPlain_of_ascii h.1).mpr h.2⟩
  · exact ⟨h.1, (isPlain_of_ascii h.1).mp h.2⟩

theorem isDigitChar_lower {c : Char} (h : Punycode.IsDigitChar c) :
    c.toNat < 0x80 ∧ isPlain c = true ∧ c ≠ '.' := by
  obtain ⟨n, hn, rfl⟩ := h
  have hall : ∀ n < 36, (Punycode.digitChar n).toNat < 0x80 ∧
      (Punycode.digitChar n).toLower = Punycode.digitChar n ∧ Punycode.digitChar n ≠ '.' := by
    decide
  obtain ⟨hascii, hlower, hdot⟩ := hall n hn
  exact ⟨hascii, (isPlain_of_ascii hascii).mpr hlower, hdot⟩

/-! ### Labels -/

section
variable {label code text : List Char}

theorem asciiLabel?_eq_some (h : asciiLabel? label = some code) :
    (label.all isAscii = true ∧ code = label) ∨
      (label.all isAscii = false ∧ label.length ≤ longestText ∧
        code = codedStart ++ Punycode.encode label) := by
  unfold asciiLabel? at h
  split at h
  · rename_i hascii
    cases h
    exact .inl ⟨hascii, rfl⟩
  · rename_i hascii
    split at h
    · rename_i hlen
      cases h
      exact .inr ⟨by simpa using hascii, hlen, rfl⟩
    · cases h

theorem mem_asciiLabel? (h : asciiLabel? label = some code) {c : Char} (hc : c ∈ code) :
    (c ∈ label ∧ c.toNat < 0x80) ∨ (c.toNat < 0x80 ∧ isPlain c = true ∧ c ≠ '.') := by
  rcases asciiLabel?_eq_some h with ⟨hascii, rfl⟩ | ⟨-, -, rfl⟩
  · exact .inl ⟨hc, of_decide_eq_true (List.all_eq_true.mp hascii c hc)⟩
  · rcases List.mem_append.mp hc with hc | hc
    · have hall : ∀ c ∈ codedStart, c.toNat < 0x80 ∧ c.toLower = c ∧ c ≠ '.' :=
        List.all_iff_forall_prop.mp (by decide)
      obtain ⟨hsmall, hlower, hdot⟩ := hall c hc
      exact .inr ⟨hsmall, (isPlain_of_ascii hsmall).mpr hlower, hdot⟩
    · rcases Punycode.mem_encode hc with hmem | rfl | hdigit
      · exact .inl hmem
      · exact .inr ⟨by decide, (isPlain_of_ascii (by decide)).mpr (by decide), by decide⟩
      · exact .inr (isDigitChar_lower hdigit)

/-- The text of a coded label is read from what is behind its mark, if that is not too long. -/
theorem labelText?_of_isCoded (h : isCoded label = true) : labelText? label =
    if label.all isAscii = true ∧ label.getLast? ≠ some '-' ∧
        label.length ≤ codedStart.length + longestCode then
      Punycode.decode? (label.drop codedStart.length)
    else none := by
  have hlen : (label.drop codedStart.length).length ≤ longestCode ↔
      label.length ≤ codedStart.length + longestCode := by
    rw [List.length_drop]
    omega
  unfold labelText?
  rw [if_pos h]
  dsimp only
  simp only [hlen]

theorem labelText?_of_not_isCoded (h : isCoded label = false) : labelText? label = some label := by
  unfold labelText?
  rw [if_neg (by rw [h]; decide)]

theorem isCoded_codedStart (code : List Char) : isCoded (codedStart ++ code) = true :=
  List.isPrefixOf_iff_prefix.mpr (List.prefix_append _ _)

theorem all_isAscii_encode (label : List Char) :
    (codedStart ++ Punycode.encode label).all isAscii = true := by
  refine List.all_eq_true.mpr fun c hc => decide_eq_true ?_
  rcases List.mem_append.mp hc with hc | hc
  · exact List.all_iff_forall_prop.mp (by decide : codedStart.all (·.toNat < 0x80)) c hc
  · rcases Punycode.mem_encode hc with ⟨-, hsmall⟩ | rfl | hdigit
    · exact hsmall
    · decide
    · exact (isDigitChar_lower hdigit).1

/-- A label gives back its text from ASCII, unless its code is too long. -/
theorem labelText?_asciiLabel? (hcode : asciiLabel? label = some code)
    (htext : labelText? label = some text) :
    labelText? code =
      if isCoded code = true → code.length ≤ codedStart.length + longestCode then some text
      else none := by
  rcases asciiLabel?_eq_some hcode with ⟨-, rfl⟩ | ⟨hascii, hlen, rfl⟩
  · rw [htext, if_pos]
    intro hcoded
    rw [labelText?_of_isCoded hcoded] at htext
    split at htext
    · rename_i hright
      exact hright.2.2
    · cases htext
  · have hplain : isCoded label = false := by
      by_contra hcoded
      rw [labelText?_of_isCoded (by simpa using hcoded), if_neg (by simp [hascii])] at htext
      cases htext
    rw [labelText?_of_not_isCoded hplain] at htext
    cases htext
    have hbeyond : ¬ ∀ c ∈ label, c.toNat < 0x80 := by
      intro hall
      have : label.all isAscii = true :=
        List.all_eq_true.mpr fun c hc => decide_eq_true (hall c hc)
      rw [hascii] at this
      cases this
    obtain ⟨c, hdigit, hlast⟩ := Punycode.getLast?_encode hlen hbeyond
    have hend : (codedStart ++ Punycode.encode label).getLast? ≠ some '-' := by
      rw [List.getLast?_append, hlast]
      intro h
      exact hdigit.ne_hyphen (Option.some.inj h)
    rw [labelText?_of_isCoded (isCoded_codedStart _), List.drop_left, Punycode.decode?_encode hlen]
    simp only [all_isAscii_encode, isCoded_codedStart, hend, ne_eq, not_false_eq_true, true_and,
      forall_const]

end

/-! ### Names -/

/-- Every code in a name is short enough to be read. -/
def HasReadableCodes (name : List Char) : Prop :=
  ∀ label ∈ name.splitOn '.', isCoded label = true →
    label.length ≤ codedStart.length + longestCode

instance (name : List Char) : Decidable (HasReadableCodes name) := by
  unfold HasReadableCodes
  infer_instance

theorem texts_of_codes {labels codes texts : List (List Char)}
    (hcodes : List.Forall₂ (fun a b => asciiLabel? a = some b) labels codes)
    (htexts : List.Forall₂ (fun a b => labelText? a = some b) labels texts)
    (hshort : ∀ code ∈ codes, isCoded code = true →
      code.length ≤ codedStart.length + longestCode) :
    List.Forall₂ (fun a b => labelText? a = some b) codes texts := by
  induction hcodes generalizing texts with
  | nil =>
    cases htexts
    exact .nil
  | cons hcode _ ih =>
    cases htexts with
    | cons htext htexts =>
      obtain ⟨hfirst, hrest⟩ := List.forall_mem_cons.mp hshort
      exact .cons (by rw [labelText?_asciiLabel? hcode htext, if_pos hfirst]) (ih htexts hrest)

/-- Whether texts can be those of the labels of a name. -/
def areRight (texts : List (List Char)) : Bool :=
  texts.all isLabel && (!texts.any isLeftward || texts.all keepsOrder)

/-- Texts in ASCII are right. -/
theorem areRight_of_ascii {texts : List (List Char)} (h : ∀ text ∈ texts, text.all isAscii = true) :
    areRight texts = true := by
  have hlabel : texts.all isLabel = true := List.all_eq_true.mpr fun text hmem => by
    rw [isLabel, h text hmem, Bool.true_or]
  have hright : texts.any isLeftward = false := by
    refine List.any_eq_false.mpr fun text hmem => ?_
    rw [Bool.not_eq_true]
    refine List.any_eq_false.mpr fun c hc => ?_
    have hsmall : c.toNat < 0x80 := of_decide_eq_true (List.all_eq_true.mp (h text hmem) c hc)
    rw [decide_eq_false (by omega), Bool.false_and]
    decide
  rw [areRight, hlabel, hright]
  rfl

theorem isName_iff {name : List Char} : isName name = true ↔ (∀ c ∈ name, isPlain c = true) ∧
    ∃ texts, List.Forall₂ (fun a b => labelText? a = some b) (name.splitOn '.') texts ∧
      areRight texts = true := by
  unfold isName
  rw [Bool.and_eq_true, List.all_eq_true]
  refine and_congr_right fun _ => ?_
  cases htexts : (name.splitOn '.').mapM labelText? with
  | some texts =>
    have hread := (mapM_eq_some_iff fun _ _ => Iff.rfl).mp htexts
    refine ⟨fun h => ⟨texts, hread, h⟩, fun h => ?_⟩
    obtain ⟨others, hothers, hright⟩ := h
    have hsame := (mapM_eq_some_iff fun _ _ => Iff.rfl).mpr hothers
    rw [htexts] at hsame
    cases hsame
    exact hright
  | none =>
    refine ⟨fun h => (by cases h), fun h => ?_⟩
    obtain ⟨others, hothers, -⟩ := h
    have hsame := (mapM_eq_some_iff fun _ _ => Iff.rfl).mpr hothers
    rw [htexts] at hsame
    cases hsame

/-- The codes of a name are readable if its labels are read. -/
theorem hasReadableCodes_of_isName {name : List Char} (h : isName name = true) :
    HasReadableCodes name := by
  obtain ⟨-, texts, hread, -⟩ := isName_iff.mp h
  intro label hlabel hcoded
  obtain ⟨text, -, htext⟩ := exists_of_forall₂ hread.flip label hlabel
  rw [labelText?_of_isCoded hcoded] at htext
  split at htext
  · rename_i hright
    exact hright.2.2
  · cases htext

theorem ofText?_of_not_isName {name : List Char} (hl : isLowerAscii name = true)
    (h : isName name = false) : ofText? name = none := by
  rw [ofText?, mapped?_of_isLowerAscii hl, Option.bind_some, if_neg (by rw [h]; decide)]

/-- The labels of a name in ASCII are those of the name, each in ASCII. -/
theorem splitOn_asciiForm? {name form : List Char} (hascii : name.all isAscii = false)
    (h : asciiForm? name = some form) :
    List.Forall₂ (fun a b => asciiLabel? a = some b) (name.splitOn '.') (form.splitOn '.') := by
  unfold asciiForm? at h
  rw [if_neg (by rw [hascii]; decide)] at h
  obtain ⟨codes, hcodes, rfl⟩ := Option.map_eq_some_iff.mp h
  have hread := (mapM_eq_some_iff fun _ _ => Iff.rfl).mp hcodes
  have hdots : ∀ code ∈ codes, '.' ∉ code := by
    intro code hcode hdot
    obtain ⟨label, hlabel, hform⟩ := exists_of_forall₂ hread code hcode
    rcases mem_asciiLabel? hform hdot with ⟨hmem, -⟩ | ⟨-, -, hne⟩
    · exact (mem_part_of_splitOn hlabel).1 hmem
    · exact hne rfl
  have hne : codes ≠ [] := by
    rintro rfl
    cases hlen : name.splitOn '.' with
    | nil => exact List.splitOn_ne_nil _ _ hlen
    | cons label labels =>
      rw [hlen] at hread
      cases hread
  rw [List.splitOn_intercalate '.' hdots hne]
  exact hread

theorem isLowerAscii_asciiForm? {name form : List Char} (hname : isName name = true)
    (h : asciiForm? name = some form) : isLowerAscii form = true := by
  have hplain := (isName_iff.mp hname).1
  refine isLowerAscii_iff.mpr fun c hc => ?_
  by_cases hascii : name.all isAscii = true
  · rw [asciiForm?, if_pos hascii] at h
    cases h
    exact ⟨of_decide_eq_true (List.all_eq_true.mp hascii c hc), hplain c hc⟩
  · have hcodes := splitOn_asciiForm? (by simpa using hascii) h
    have hjoined : ['.'].intercalate (form.splitOn '.') = form := List.intercalate_splitOn '.'
    rw [← hjoined] at hc
    rcases mem_intercalate hc with rfl | ⟨code, hcode, hc⟩
    · exact ⟨by decide, (isPlain_of_ascii (by decide)).mpr (by decide)⟩
    · obtain ⟨label, hlabel, hform⟩ := exists_of_forall₂ hcodes code hcode
      rcases mem_asciiLabel? hform hc with ⟨hmem, hsmall⟩ | ⟨hsmall, hp, -⟩
      · exact ⟨hsmall, hplain c ((mem_part_of_splitOn hlabel).2 c hmem)⟩
      · exact ⟨hsmall, hp⟩

/-- **A name in its form is read as itself**, unless one of its codes is too long. -/
theorem ofText?_asciiForm? {name form : List Char} (hname : isName name = true)
    (h : asciiForm? name = some form) :
    ofText? form = if HasReadableCodes form then some form else none := by
  have hlower := isLowerAscii_asciiForm? hname h
  by_cases hascii : name.all isAscii = true
  · rw [asciiForm?, if_pos hascii] at h
    cases h
    rw [ofText?_of_isName hlower hname, if_pos (hasReadableCodes_of_isName hname)]
  by_cases hshort : HasReadableCodes form
  · obtain ⟨-, texts, hread, hright⟩ := isName_iff.mp hname
    have hcodes := splitOn_asciiForm? (by simpa using hascii) h
    have hform : isName form = true := isName_iff.mpr
      ⟨fun c hc => (isLowerAscii_iff.mp hlower c hc).2, texts, texts_of_codes hcodes hread hshort,
        hright⟩
    rw [ofText?_of_isName hlower hform, if_pos hshort]
  · have hform : isName form = false := by
      by_contra hname'
      exact hshort (hasReadableCodes_of_isName (by simpa using hname'))
    rw [ofText?_of_not_isName hlower hform, if_neg hshort]

theorem ofText?_ofText? {cs form : List Char} (h : ofText? cs = some form) :
    isLowerAscii form = true ∧
      ofText? form = if HasReadableCodes form then some form else none := by
  obtain ⟨name, -, h⟩ := Option.bind_eq_some_iff.mp h
  split at h
  · rename_i hname
    exact ⟨isLowerAscii_asciiForm? hname h, ofText?_asciiForm? hname h⟩
  · cases h

end DomainName
end LanInference
