/-
# Names in front of their service type

The full name of an instance is its name, a dot and its service type. What stands in front of the
dot is the name, whatever characters it is made of; the letter case of the service type and the dots
behind it do not count.

The name can be found by bytes (`Instances.slicedName?`): the full name in lower case is compared
with the ending of the service type, and as many bytes as that ending has are taken off the full
name as it was. If a character had more or fewer bytes in lower case, what is left could end inside
a character. No character has (`utf8ByteSize_map_toLower`), so a text is left always, and it is the
name by characters.

Key definitions: `Text.firstBytes?`, `Instances.Cut`, `Instances.slicedName?`.
Key theorems: `Text.firstBytes?_eq_some_iff`, `Instances.instanceName_cases`,
`Instances.slicedName?_eq`, `Instances.ofType_congr`, `Instances.cut_exactly`.
-/
import LanInference.Proofs.Discovery.ChangeLog
import LanInference.Proofs.Discovery.Keys

namespace LanInference

/-! ### The first bytes of a text, and its end -/

namespace Text

/-- The first `n` bytes of a text; nothing if it has fewer, or if they end inside a character. -/
def firstBytes? (n : Nat) (s : String) : Option String :=
  (s.pos? ⟨n⟩).map fun p => (s.sliceTo p).copy

/-- A position is found exactly at its own offset. -/
theorem pos?_eq_some_iff {s : String} {offset : String.Pos.Raw} {p : s.Pos} :
    s.pos? offset = some p ↔ p.offset = offset := by
  unfold String.pos? String.Slice.pos?
  constructor
  · intro h
    split at h
    · cases h
      rfl
    · cases h
  · rintro rfl
    rw [dif_pos (String.Pos.Raw.isValidForSlice_eq_true_iff.mpr p.isValid.toSlice)]
    rfl

/-- **The first bytes of a text are a text exactly if another text follows them.** -/
theorem firstBytes?_eq_some_iff {n : Nat} {s front : String} :
    firstBytes? n s = some front ↔ front.utf8ByteSize = n ∧ ∃ rest, s = front ++ rest := by
  constructor
  · intro h
    obtain ⟨p, hp, rfl⟩ := Option.map_eq_some_iff.mp h
    have hoffset : p.offset = ⟨n⟩ := pos?_eq_some_iff.mp hp
    have hbytes : p.offset = (s.sliceTo p).copy.rawEndPos := p.splits.offset_eq_rawEndPos
    exact ⟨congrArg String.Pos.Raw.byteIdx (hbytes.symm.trans hoffset), _, p.splits.eq_append⟩
  · rintro ⟨rfl, rest, rfl⟩
    have hvalid : String.Pos.Raw.IsValid (front ++ rest) front.rawEndPos :=
      String.Pos.Raw.isValid_iff_exists_append.mpr ⟨front, rest, rfl, rfl⟩
    have hsplits : ((front ++ rest).pos _ hvalid).Splits front rest := ⟨rfl, rfl⟩
    have hpos : (front ++ rest).pos? front.rawEndPos = some ((front ++ rest).pos _ hvalid) :=
      pos?_eq_some_iff.mpr rfl
    show ((front ++ rest).pos? front.rawEndPos).map _ = _
    rw [hpos, Option.map_some, ← hsplits.eq_left (String.Pos.splits _)]

theorem endsWith_iff {s ending : String} :
    s.endsWith ending = true ↔ ending.toList <:+ s.toList := by
  rw [String.endsWith_eq_endsWith_toSlice, String.Slice.endsWith_string_iff, String.copy_toSlice]

end Text

/-! ### Dots at the end -/

theorem normalName_ne_empty {name : String} (h : ∃ c ∈ name.toList, c ≠ '.') :
    normalName name ≠ "" := by
  intro hempty
  obtain ⟨c, hc, hdot⟩ := h
  obtain ⟨n, hn⟩ := exists_dots name.toList
  have hnil : Text.dropTrailing (· == '.') name.toList = [] := by
    rw [← List.map_eq_nil_iff (f := Char.toLower), ← toList_normalName, hempty, String.toList_empty]
  rw [hn, hnil, List.nil_append] at hc
  exact hdot (List.eq_of_mem_replicate hc)

/-- Dots at the end of a text are at the end of its last part, if that is more than dots. -/
theorem stripTrailing_append {front back : String} (h : normalName back ≠ "") :
    Text.stripTrailing '.' (front ++ back) = front ++ Text.stripTrailing '.' back := by
  have hback : Text.dropTrailing (· == '.') back.toList ≠ [] := by
    intro hnil
    refine h (String.toList_eq_nil_iff.mp ?_)
    rw [toList_normalName, hnil, List.map_nil]
  rw [Text.stripTrailing, String.toList_append, Text.dropTrailing_append, if_neg hback,
    String.ofList_append, String.ofList_toList, Text.stripTrailing]

namespace Instances

/-! ### Two parts of a name -/

/-- A name in two parts: something in front, and this ending in any letter case. -/
structure Cut (ending name front rest : String) : Prop where
  joined : name = front ++ rest
  front_ne : front ≠ ""
  ends : rest.map Char.toLower = ending

namespace Cut

variable {ending name front rest : String}

theorem length_rest (h : Cut ending name front rest) :
    rest.toList.length = ending.toList.length := by
  rw [← h.ends, String.toList_map, List.length_map]

theorem utf8ByteSize_rest (h : Cut ending name front rest) :
    rest.utf8ByteSize = ending.utf8ByteSize := by
  rw [← h.ends, utf8ByteSize_map_toLower]

theorem utf8ByteSize_name (h : Cut ending name front rest) :
    name.utf8ByteSize = front.utf8ByteSize + ending.utf8ByteSize := by
  rw [h.joined, String.utf8ByteSize_append, h.utf8ByteSize_rest]

/-- A name with more bytes than the ending, and with the ending behind in lower case, has the two
parts. -/
theorem exists_of_endsWith (hmore : ending.utf8ByteSize < name.utf8ByteSize)
    (hends : (name.map Char.toLower).endsWith ending = true) :
    ∃ front rest, Cut ending name front rest := by
  rw [Text.endsWith_iff, String.toList_map] at hends
  obtain ⟨lowered, hlowered⟩ := hends
  obtain ⟨front, rest, hjoined, -, hrest⟩ := List.map_eq_append_iff.mp hlowered.symm
  have hname : name = String.ofList front ++ String.ofList rest := by
    rw [← String.ofList_append, ← hjoined, String.ofList_toList]
  have hending : (String.ofList rest).map Char.toLower = ending := by
    rw [← String.toList_inj, String.toList_map, String.toList_ofList, hrest]
  refine ⟨String.ofList front, String.ofList rest, hname, fun hfront => ?_, hending⟩
  rw [hname, hfront, ← hending, utf8ByteSize_map_toLower, String.empty_append] at hmore
  exact Nat.lt_irrefl _ hmore

end Cut

/-! ### The name by bytes -/

variable {is : Instances} {fullName front rest : String}

/-- The name of an instance by bytes: if the full name has more of them than the ending and, in
lower case, ends in it, as many bytes as the ending has are taken off. Nothing if what is left does
not end between two characters. -/
def slicedName? (is : Instances) (fullName : String) : Option String :=
  let name := Text.stripTrailing '.' fullName
  if is.ending.utf8ByteSize < name.utf8ByteSize ∧ (name.map Char.toLower).endsWith is.ending then
    Text.firstBytes? (name.utf8ByteSize - is.ending.utf8ByteSize) name
  else some name

theorem slicedName?_of_cut (h : Cut is.ending (Text.stripTrailing '.' fullName) front rest) :
    is.slicedName? fullName = some front := by
  have hfront : 0 < front.utf8ByteSize :=
    Nat.pos_of_ne_zero fun hzero => h.front_ne (String.utf8ByteSize_eq_zero_iff.mp hzero)
  have hmore : is.ending.utf8ByteSize < (Text.stripTrailing '.' fullName).utf8ByteSize := by
    rw [h.utf8ByteSize_name]
    omega
  have hends : ((Text.stripTrailing '.' fullName).map Char.toLower).endsWith is.ending = true := by
    rw [Text.endsWith_iff, h.joined, ← h.ends, String.toList_map, String.toList_map,
      String.toList_append, List.map_append]
    exact List.suffix_append _ _
  have hkept : (Text.stripTrailing '.' fullName).utf8ByteSize - is.ending.utf8ByteSize =
      front.utf8ByteSize := by
    rw [h.utf8ByteSize_name, Nat.add_sub_cancel]
  unfold slicedName?
  dsimp only
  rw [if_pos ⟨hmore, hends⟩, hkept]
  exact Text.firstBytes?_eq_some_iff.mpr ⟨rfl, rest, h.joined⟩

theorem slicedName?_of_uncut
    (h : ∀ front rest, ¬ Cut is.ending (Text.stripTrailing '.' fullName) front rest) :
    is.slicedName? fullName = some (Text.stripTrailing '.' fullName) := by
  refine if_neg fun ⟨hmore, hends⟩ => ?_
  obtain ⟨front, rest, hcut⟩ := Cut.exists_of_endsWith hmore hends
  exact h front rest hcut

/-! ### The name by characters -/

theorem instanceName_of_cut (h : Cut is.ending (Text.stripTrailing '.' fullName) front rest) :
    is.instanceName fullName = front := by
  have hname : (Text.stripTrailing '.' fullName).toList = front.toList ++ rest.toList := by
    rw [h.joined, String.toList_append]
  have hfront : 0 < front.toList.length :=
    List.length_pos_iff.mpr fun hnil => h.front_ne (String.toList_eq_nil_iff.mp hnil)
  have hmore : is.ending.toList.length < (front.toList ++ rest.toList).length := by
    rw [List.length_append, h.length_rest]
    omega
  have hkept : (front.toList ++ rest.toList).length - is.ending.toList.length =
      front.toList.length := by
    rw [List.length_append, h.length_rest, Nat.add_sub_cancel]
  have hends : rest.toList.map Char.toLower = is.ending.toList := by
    rw [← h.ends, String.toList_map]
  unfold instanceName
  dsimp only
  rw [hname, hkept, List.drop_left, List.take_left, if_pos ⟨hmore, hends⟩, String.ofList_toList]

theorem instanceName_of_uncut
    (h : ∀ front rest, ¬ Cut is.ending (Text.stripTrailing '.' fullName) front rest) :
    is.instanceName fullName = Text.stripTrailing '.' fullName := by
  unfold instanceName
  dsimp only
  generalize Text.stripTrailing '.' fullName = name at h
  generalize hkept : name.toList.length - is.ending.toList.length = kept
  rw [String.ofList_toList]
  refine if_neg fun ⟨hmore, hends⟩ => ?_
  refine h (.ofList (name.toList.take kept)) (.ofList (name.toList.drop kept)) ⟨?_, ?_, ?_⟩
  · rw [← String.ofList_append, List.take_append_drop, String.ofList_toList]
  · rw [ne_eq, String.ofList_eq_empty_iff, List.take_eq_nil_iff]
    rintro (hzero | hnil)
    · omega
    · rw [hnil] at hmore
      exact Nat.not_lt_zero _ hmore
  · rw [← String.toList_inj, String.toList_map, String.toList_ofList, hends]

/-- A name is cut off in front of the ending if there is something in front, and is whole if not. -/
theorem instanceName_cases (is : Instances) (fullName : String) :
    (∃ rest, Cut is.ending (Text.stripTrailing '.' fullName) (is.instanceName fullName) rest) ∨
      (∀ front rest, ¬ Cut is.ending (Text.stripTrailing '.' fullName) front rest) ∧
        is.instanceName fullName = Text.stripTrailing '.' fullName := by
  by_cases hcut : ∃ front rest, Cut is.ending (Text.stripTrailing '.' fullName) front rest
  · obtain ⟨front, rest, hcut⟩ := hcut
    rw [instanceName_of_cut hcut]
    exact .inl ⟨rest, hcut⟩
  · have huncut : ∀ front rest, ¬ Cut is.ending (Text.stripTrailing '.' fullName) front rest :=
      fun front rest h => hcut ⟨front, rest, h⟩
    exact .inr ⟨huncut, instanceName_of_uncut huncut⟩

/-- **The cut in the bytes is the one between the characters,** and never fails. -/
theorem slicedName?_eq (is : Instances) (fullName : String) :
    is.slicedName? fullName = some (is.instanceName fullName) := by
  rcases is.instanceName_cases fullName with ⟨rest, hcut⟩ | ⟨huncut, hwhole⟩
  · exact slicedName?_of_cut hcut
  · rw [hwhole]
    exact slicedName?_of_uncut huncut

/-! ### Names of a service type -/

/-- Service types that differ in letter case and final dots alone have the same instances. -/
theorem ofType_congr {serviceType other : String} (h : SameHost other serviceType) :
    ofType other = ofType serviceType := by
  rw [ofType, ofType, normalName_eq_iff.mpr h]

theorem sameHost_dots (serviceType : String) (n : Nat) :
    SameHost (serviceType ++ String.ofList (List.replicate n '.')) serviceType :=
  ⟨serviceType.toList, serviceType.toList, n, 0,
    by rw [String.toList_append, String.toList_ofList], (List.append_nil _).symm, rfl⟩

theorem sameHost_fullyQualified (serviceType : String) :
    SameHost (fullyQualified serviceType) serviceType := by
  obtain ⟨n, hn⟩ := exists_dots serviceType.toList
  refine ⟨_, _, 1, n, ?_, hn, rfl⟩
  rw [fullyQualified, Text.stripTrailing, String.toList_append, String.toList_ofList]
  rfl

/-- A full name is cut in front of the dot before its service type. -/
theorem cut_append {serviceType spelled name : String} (hname : name ≠ "")
    (htype : normalName serviceType ≠ "") (hspelled : SameHost spelled serviceType) :
    Cut ("." ++ normalName serviceType) (Text.stripTrailing '.' (name ++ "." ++ spelled)) name
      ("." ++ Text.stripTrailing '.' spelled) := by
  have hsame : normalName spelled = normalName serviceType := normalName_eq_iff.mpr hspelled
  refine ⟨?_, hname, ?_⟩
  · rw [stripTrailing_append (hsame ▸ htype), String.append_assoc]
  · rw [← hsame, ← String.toList_inj, String.toList_map, String.toList_append, List.map_append,
      String.toList_append, normalName, String.toList_map]
    rfl

/-! ### All together -/

/-- **Instance names are cut exactly,** for every service type and after any reports. The cut in the
bytes is between two characters, or nothing is cut; what is cut off is a dot and the service type,
and it is cut off wherever something stands in front. So the name of an instance comes back from
its full name, in any spelling of the service type, and the service type itself may be spelled with
dots behind it. -/
theorem cut_exactly (serviceType : String) (rs : List ResolverReport) :
    let is := ((ofType serviceType).feed rs).1
    let ending := "." ++ normalName serviceType
    (∀ fullName, is.slicedName? fullName = some (is.instanceName fullName)) ∧
      (∀ fullName,
        (∃ rest, Cut ending (Text.stripTrailing '.' fullName) (is.instanceName fullName) rest) ∨
          (∀ front rest, ¬ Cut ending (Text.stripTrailing '.' fullName) front rest) ∧
            is.instanceName fullName = Text.stripTrailing '.' fullName) ∧
      (∀ name spelled, name ≠ "" → (∃ c ∈ serviceType.toList, c ≠ '.') →
        SameHost spelled serviceType → is.instanceName (name ++ "." ++ spelled) = name) ∧
      (∀ n, ofType (serviceType ++ String.ofList (List.replicate n '.')) = ofType serviceType) ∧
      ofType (fullyQualified serviceType) = ofType serviceType := by
  intro is ending
  have hending : is.ending = ending := ending_feed (ofType serviceType) rs
  refine ⟨is.slicedName?_eq, fun fullName => ?_, fun name spelled hname htype hspelled => ?_,
    fun n => ofType_congr (sameHost_dots serviceType n),
    ofType_congr (sameHost_fullyQualified serviceType)⟩
  · rw [← hending]
    exact is.instanceName_cases fullName
  · have hcut : Cut ending _ name _ := cut_append hname (normalName_ne_empty htype) hspelled
    rw [← hending] at hcut
    exact instanceName_of_cut hcut

/-- A name with a dot and a letter of two bytes, and a service type in two spellings. -/
theorem cut_exactly_of_kitchen :
    "Küche 2.0" ≠ "" ∧ (∃ c ∈ "_HTTP._tcp.Local..".toList, c ≠ '.') ∧
      SameHost "_http._TCP.local." "_HTTP._tcp.Local.." ∧
      ((ofType "_HTTP._tcp.Local..").feed studioReports).1.instanceName
        ("Küche 2.0" ++ "." ++ "_http._TCP.local.") = "Küche 2.0" := by
  have htype : ∃ c ∈ "_HTTP._tcp.Local..".toList, c ≠ '.' := ⟨'_', by decide +kernel, by decide⟩
  have hspelled : SameHost "_http._TCP.local." "_HTTP._tcp.Local.." :=
    ⟨"_http._TCP.local".toList, "_HTTP._tcp.Local".toList, 1, 2, by decide, by decide, by decide⟩
  have hname : "Küche 2.0" ≠ "" := by decide
  exact ⟨hname, htype, hspelled, (cut_exactly "_HTTP._tcp.Local.." studioReports).2.2.1
    "Küche 2.0" "_http._TCP.local." hname htype hspelled⟩

-- The Kelvin sign, whose small letter is one of ASCII, is kept as it is and has its three bytes.
example : (ofType "_k._tcp").instanceName "box._\u212a._tcp." = "box._\u212a._tcp" := by
  decide +kernel

end Instances
end LanInference
