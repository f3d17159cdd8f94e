/-
# Session ids read back

The text of a session id is read as the id, so that different ids have different texts. A text is
read as an id exactly if in lower case it is the id's digits in one of four forms; of a URN, the
reader must take the start too. Whatever a reader takes there, it reads each form of the digits in
any letter case.

Key definitions: `SessionId.digits`, `SessionId.Form`, `SessionId.Form.write`.
Key theorems: `SessionId.read?_text`, `SessionId.text_inj`, `SessionId.ofDigits?_eq_some_iff`,
`SessionId.ofHyphenated?_eq_some_iff`, `SessionId.read?_eq_some_iff`, `SessionId.read?_write`.
-/
import LanInference.Proofs.Text.Digits
import LanInference.SessionId

namespace LanInference
namespace SessionId

theorem length_hyphenated {ds : List Char} (h : ds.length = 32) :
    (hyphenated ds).length = 36 := by
  simp [hyphenated, h]

/-- The groups of digits, joined again. -/
theorem groups_eq (ds : List Char) : ds.take 8 ++ (ds.drop 8).take 4 ++ (ds.drop 12).take 4 ++
    (ds.drop 16).take 4 ++ ds.drop 20 = ds := by
  have hjoin : ∀ k m : Nat, (ds.drop k).take m ++ ds.drop (k + m) = ds.drop k := by
    intro k m
    rw [← List.drop_drop, List.take_append_drop]
  simp only [List.append_assoc]
  rw [hjoin 16 4, hjoin 12 4, hjoin 8 4, List.take_append_drop]

theorem ofHyphenated?_hyphenated {ds : List Char} (h : ds.length = 32) :
    ofHyphenated? (hyphenated ds) = ofDigits? ds := by
  have hcut : (hyphenated ds).take 8 ++ ((hyphenated ds).drop 9).take 4 ++
      ((hyphenated ds).drop 14).take 4 ++ ((hyphenated ds).drop 19).take 4 ++
      (hyphenated ds).drop 24 = ds := by
    refine Eq.trans ?_ (groups_eq ds)
    simp [hyphenated, List.drop_append, List.drop_take, h]
  unfold ofHyphenated?
  simp only [hcut, length_hyphenated h, and_self, if_true]

theorem ofDigits?_hexFixed (id : SessionId) :
    ofDigits? (Text.hexFixed 32 id.value.toNat) = some id := by
  have hvalue : Text.hexValue? (Text.hexFixed 32 id.value.toNat) = some id.value.toNat := by
    have hlt : id.value.toNat < 16 ^ 32 := by
      have h := id.value.isLt
      omega
    rw [Text.hexValue?_hexFixed, Nat.mod_eq_of_lt hlt]
  unfold ofDigits?
  rw [if_pos (Text.length_hexFixed 32 _), hvalue, Option.map_some, BitVec.ofNat_toNat,
    BitVec.setWidth_eq]

/-- **An id is read back from its text.** -/
theorem read?_text (u : UrnReading) (id : SessionId) : u.read? id.text = some id := by
  have hdigits : (Text.hexFixed 32 id.value.toNat).length = 32 := Text.length_hexFixed 32 _
  have hlen : (hyphenated (Text.hexFixed 32 id.value.toNat)).length = 36 :=
    length_hyphenated hdigits
  unfold UrnReading.read? text
  simp only [String.toList_ofList, hlen]
  rw [ofHyphenated?_hyphenated hdigits, ofDigits?_hexFixed]

theorem parse?_text (id : SessionId) : parse? id.text = some id := read?_text .anyCase id

/-- Different ids have different texts. -/
theorem text_inj {a b : SessionId} : a.text = b.text ↔ a = b := by
  constructor
  · intro h
    have hparse : some a = some b := by rw [← parse?_text a, ← parse?_text b, h]
    exact Option.some.inj hparse
  · rintro rfl
    rfl

/-! ### The forms of an id -/

/-- The hexadecimal digits of an id, in lower case. -/
def digits (id : SessionId) : List Char := Text.hexFixed 32 id.value.toNat

/-- The ways in which the digits of an id are written. -/
inductive Form where
  | bare
  | hyphenated
  | braced
  | urn
  deriving Repr, DecidableEq

/-- Digits in a form, the start of a URN in lower case. -/
def Form.write (ds : List Char) : Form → List Char
  | bare => ds
  | hyphenated => SessionId.hyphenated ds
  | braced => '{' :: (SessionId.hyphenated ds ++ ['}'])
  | urn => urnStart ++ SessionId.hyphenated ds

theorem length_digits (id : SessionId) : id.digits.length = 32 := Text.length_hexFixed 32 _

theorem toList_text (id : SessionId) : id.text.toList = hyphenated id.digits :=
  String.toList_ofList

theorem hexValue?_digits (id : SessionId) : Text.hexValue? id.digits = some id.value.toNat := by
  have hlt : id.value.toNat < 16 ^ 32 := by
    have h := id.value.isLt
    omega
  rw [digits, Text.hexValue?_hexFixed, Nat.mod_eq_of_lt hlt]

/-- Digits are those of an id if they are in lower case. -/
theorem ofDigits?_eq_some_iff {ds : List Char} {id : SessionId} :
    ofDigits? ds = some id ↔ ds.map Char.toLower = id.digits := by
  unfold ofDigits?
  constructor
  · intro h
    split at h
    · rename_i hlen
      obtain ⟨n, hn, rfl⟩ := Option.map_eq_some_iff.mp h
      obtain ⟨hlt, hds⟩ := Text.hexValue?_eq_some_iff.mp hn
      rw [hlen] at hlt hds
      have hvalue : (BitVec.ofNat 128 n).toNat = n := by
        rw [BitVec.toNat_ofNat]
        exact Nat.mod_eq_of_lt (by omega)
      rw [hds, digits, hvalue]
    · cases h
  · intro h
    have hlen : ds.length = 32 := by rw [← List.length_map Char.toLower, h, length_digits]
    have hvalue : Text.hexValue? ds = some id.value.toNat := by
      refine Text.hexValue?_eq_some_iff.mpr ⟨?_, ?_⟩
      · rw [hlen]
        have hlt := id.value.isLt
        omega
      · rw [hlen]
        exact h
    rw [if_pos hlen, hvalue, Option.map_some, BitVec.ofNat_toNat, BitVec.setWidth_eq]

/-! ### Groups of digits -/

theorem exists_groups {ds : List Char} (h : ds.length = 32) : ∃ a b c d e : List Char,
    a.length = 8 ∧ b.length = 4 ∧ c.length = 4 ∧ d.length = 4 ∧ e.length = 12 ∧
      ds = a ++ (b ++ (c ++ (d ++ e))) := by
  refine ⟨ds.take 8, (ds.drop 8).take 4, (ds.drop 12).take 4, (ds.drop 16).take 4, ds.drop 20,
    ?_, ?_, ?_, ?_, ?_, ?_⟩
  · simp [h]
  · simp [h]
  · simp [h]
  · simp [h]
  · simp [h]
  · simpa only [List.append_assoc] using (groups_eq ds).symm

theorem hyphenated_groups {a b c d : List Char} (e : List Char) (ha : a.length = 8)
    (hb : b.length = 4) (hc : c.length = 4) (hd : d.length = 4) :
    hyphenated (a ++ (b ++ (c ++ (d ++ e)))) =
      a ++ '-' :: (b ++ '-' :: (c ++ '-' :: (d ++ '-' :: e))) := by
  simp (disch := omega) [hyphenated, List.drop_append, ha, hb, hc, List.drop_eq_nil_of_le]

theorem toLower_hyphen : ('-' : Char).toLower = '-' := by decide

theorem map_hyphenated (ds : List Char) :
    (hyphenated ds).map Char.toLower = hyphenated (ds.map Char.toLower) := by
  simp [hyphenated, List.map_take, List.map_drop, toLower_hyphen]

/-- A text that is hyphenated digits in lower case has hyphens where these have them. -/
theorem exists_of_map_eq_hyphenated {cs ds : List Char} (hlen : ds.length = 32)
    (h : cs.map Char.toLower = hyphenated ds) :
    ∃ ds', cs = hyphenated ds' ∧ ds'.map Char.toLower = ds := by
  have hyphen : ∀ {x : Char}, x.toLower = '-' → x = '-' := (toLower_eq_iff (by decide) _).mp
  obtain ⟨a, b, c, d, e, ha, hb, hc, hd, -, rfl⟩ := exists_groups hlen
  rw [hyphenated_groups e ha hb hc hd] at h
  obtain ⟨a', r₁, rfl, rfl, h₁⟩ := List.map_eq_append_iff.mp h
  obtain ⟨x, r₂, rfl, hx, h₂⟩ := List.map_eq_cons_iff.mp h₁
  obtain ⟨b', r₃, rfl, rfl, h₃⟩ := List.map_eq_append_iff.mp h₂
  obtain ⟨y, r₄, rfl, hy, h₄⟩ := List.map_eq_cons_iff.mp h₃
  obtain ⟨c', r₅, rfl, rfl, h₅⟩ := List.map_eq_append_iff.mp h₄
  obtain ⟨z, r₆, rfl, hz, h₆⟩ := List.map_eq_cons_iff.mp h₅
  obtain ⟨d', r₇, rfl, rfl, h₇⟩ := List.map_eq_append_iff.mp h₆
  obtain ⟨w, e', rfl, hw, rfl⟩ := List.map_eq_cons_iff.mp h₇
  rw [List.length_map] at ha hb hc hd
  refine ⟨a' ++ (b' ++ (c' ++ (d' ++ e'))), ?_, by simp only [List.map_append]⟩
  rw [hyphenated_groups e' ha hb hc hd, hyphen hx, hyphen hy, hyphen hz, hyphen hw]

theorem ofHyphenated?_eq_some_iff {cs : List Char} {id : SessionId} :
    ofHyphenated? cs = some id ↔ cs.map Char.toLower = hyphenated id.digits := by
  constructor
  · intro h
    unfold ofHyphenated? at h
    dsimp only at h
    split at h
    · rename_i hc
      rw [← ofDigits?_eq_some_iff.mp h, ← map_hyphenated, hc.2]
    · cases h
  · intro h
    obtain ⟨ds, rfl, hds⟩ := exists_of_map_eq_hyphenated id.length_digits h
    have hlen : ds.length = 32 := by rw [← List.length_map Char.toLower, hds, length_digits]
    rw [ofHyphenated?_hyphenated hlen, ofDigits?_eq_some_iff, hds]

/-! ### Texts that are read -/

/-- A text between braces is one of two characters more. -/
theorem braced_eq {cs : List Char} (hlen : cs.length = 38) (hhead : cs.head? = some '{')
    (hlast : cs.getLast? = some '}') : cs = '{' :: (cs.tail.dropLast ++ ['}']) := by
  obtain ⟨rest, rfl⟩ := List.head?_eq_some_iff.mp hhead
  have hne : rest ≠ [] := by
    rintro rfl
    cases hlen
  rw [List.getLast?_cons_of_ne_nil hne] at hlast
  obtain ⟨init, rfl⟩ := List.getLast?_eq_some_iff.mp hlast
  simp

theorem length_write (id : SessionId) (form : Form) : (form.write id.digits).length =
    match form with
    | .bare => 32
    | .hyphenated => 36
    | .braced => 38
    | .urn => 45 := by
  have hlen := length_hyphenated id.length_digits
  cases form with
  | bare => exact id.length_digits
  | hyphenated => exact hlen
  | braced => simp [Form.write, hlen]
  | urn =>
    have hstart : urnStart.length = 9 := by decide
    rw [Form.write, List.length_append, hstart, hlen]

/-- **A text is read as an id exactly if it is the id's digits in one of the forms,** the digits in
any letter case, and the reader takes the start of a URN. -/
theorem read?_eq_some_iff {u : UrnReading} {s : String} {id : SessionId} : u.read? s = some id ↔
    ∃ form : Form, s.toList.map Char.toLower = form.write id.digits ∧
      (form = .urn → u.takes (s.toList.take 9) = true) := by
  generalize hcs : s.toList = cs
  unfold UrnReading.read?
  rw [hcs]
  dsimp only
  constructor
  · intro h
    split at h
    · exact ⟨.bare, ofDigits?_eq_some_iff.mp h, nofun⟩
    · exact ⟨.hyphenated, ofHyphenated?_eq_some_iff.mp h, nofun⟩
    · rename_i hlen
      split at h
      · rename_i hbraces
        refine ⟨.braced, ?_, nofun⟩
        rw [braced_eq hlen hbraces.1 hbraces.2, List.map_cons, List.map_append,
          ofHyphenated?_eq_some_iff.mp h]
        rfl
      · cases h
    · split at h
      · rename_i hstart
        refine ⟨.urn, ?_, fun _ => hstart⟩
        rw [← List.take_append_drop 9 cs, List.map_append, u.map_toLower_of_takes hstart,
          ofHyphenated?_eq_some_iff.mp h]
        rfl
      · cases h
    · cases h
  · rintro ⟨form, h, hurn⟩
    have hlen := congrArg List.length h
    rw [List.length_map, length_write] at hlen
    cases form with
    | bare =>
      rw [show cs.length = 32 from hlen]
      exact ofDigits?_eq_some_iff.mpr h
    | hyphenated =>
      rw [show cs.length = 36 from hlen]
      exact ofHyphenated?_eq_some_iff.mpr h
    | braced =>
      rw [show cs.length = 38 from hlen]
      obtain ⟨x, r₁, rfl, hx, h₁⟩ := List.map_eq_cons_iff.mp h
      obtain ⟨inner, r₂, rfl, hinner, h₂⟩ := List.map_eq_append_iff.mp h₁
      obtain ⟨y, rfl, hy⟩ := List.map_eq_singleton_iff.mp h₂
      obtain rfl : x = '{' := (toLower_eq_iff (by decide) x).mp hx
      obtain rfl : y = '}' := (toLower_eq_iff (by decide) y).mp hy
      have hlast : (('{' :: inner) ++ ['}']).getLast? = some '}' := List.getLast?_concat
      have hbraces : ('{' :: (inner ++ ['}'])).head? = some '{' ∧
          ('{' :: (inner ++ ['}'])).getLast? = some '}' := ⟨rfl, hlast⟩
      have htrim : ('{' :: (inner ++ ['}'])).tail.dropLast = inner := by simp
      show (if _ then ofHyphenated? _ else none) = _
      rw [if_pos hbraces, htrim]
      exact ofHyphenated?_eq_some_iff.mpr hinner
    | urn =>
      rw [show cs.length = 45 from hlen]
      obtain ⟨start, inner, rfl, hstart, hinner⟩ := List.map_eq_append_iff.mp h
      have hnine : start.length = 9 := by
        rw [← List.length_map Char.toLower, hstart]
        rfl
      show (if u.takes (List.take 9 _) = true then _ else _) = _
      rw [if_pos (hurn rfl), List.drop_left' hnine]
      exact ofHyphenated?_eq_some_iff.mpr hinner

theorem map_write (ds : List Char) (form : Form) :
    (form.write ds).map Char.toLower = form.write (ds.map Char.toLower) := by
  cases form with
  | bare => rfl
  | hyphenated => exact map_hyphenated ds
  | braced =>
    have hopen : ('{' : Char).toLower = '{' := by decide
    have hclose : ('}' : Char).toLower = '}' := by decide
    simp [Form.write, map_hyphenated, hopen, hclose]
  | urn =>
    have hstart : urnStart.map Char.toLower = urnStart := by decide
    rw [Form.write, List.map_append, hstart, map_hyphenated, Form.write]

/-- **Each form of an id's digits is read as the id,** whatever their letter case, by every
reader. -/
theorem read?_write (u : UrnReading) {id : SessionId} {ds : List Char}
    (h : ds.map Char.toLower = id.digits) (form : Form) :
    u.read? (String.ofList (form.write ds)) = some id := by
  refine read?_eq_some_iff.mpr ⟨form, by rw [String.toList_ofList, map_write, h], ?_⟩
  rintro rfl
  have hnine : urnStart.length = 9 := rfl
  rw [String.toList_ofList, Form.write, List.take_left' hnine]
  exact u.takes_urnStart

end SessionId
end LanInference
