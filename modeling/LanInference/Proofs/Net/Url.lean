/-
# URLs read back

A URL that was read is in its normal form (`Url.IsWritten`): each part is in characters that may
stand there, and none of them has what ends the part. So the text of such a URL is taken apart where
it was put together, and what is read from it is the URL, with the host that is read from the host's
text. Putting segments behind a URL's text is putting them behind its last part: its path if the URL
ends with that, and otherwise its query or its fragment.

Key definitions: `Url.IsSegment`, `Url.IsWritten`, `Url.extended`.
Key theorems: `Url.isWritten_of_read`, `Url.IsWritten.parse?_text`,
`Url.IsWritten.toList_text_extended`, `Url.IsWritten.parse?_append`.
-/
import LanInference.Proofs.Net.Host
import LanInference.Proofs.Text.Digits
import Mathlib.Data.List.DropRight

namespace LanInference

/-! ### Escapes -/

namespace Text

/-- The characters of an escape. -/
def escapeChars : List Char := "%0123456789ABCDEF".toList

theorem mem_percentByte {b : UInt8} {c : Char} (h : c ∈ percentByte b) : c ∈ escapeChars := by
  rcases List.mem_cons.mp h with rfl | h
  · decide
  · obtain ⟨d, hd, rfl⟩ := List.mem_map.mp h
    obtain ⟨k, hk, rfl⟩ := exists_of_mem_hexFixed hd
    exact (by decide : ∀ k < 16, (hexChar k).toUpper ∈ escapeChars) k hk

theorem mem_percentEncode {plain : Char → Bool} {cs : List Char} {c : Char}
    (h : c ∈ percentEncode plain cs) : (c ∈ cs ∧ plain c = true) ∨ c ∈ escapeChars := by
  obtain ⟨d, hd, hc⟩ := List.mem_flatMap.mp h
  split at hc
  · rename_i hplain
    rw [List.mem_singleton.mp hc]
    exact .inl ⟨hd, hplain⟩
  · obtain ⟨b, -, hb⟩ := List.mem_flatMap.mp hc
    exact .inr (mem_percentByte hb)

/-- An escaped text is in plain characters, if those of an escape are. -/
theorem plain_of_mem_percentEncode {plain : Char → Bool} (hescape : escapeChars.all plain = true)
    {cs : List Char} {c : Char} (h : c ∈ percentEncode plain cs) : plain c = true := by
  rcases mem_percentEncode h with ⟨-, hplain⟩ | hc
  · exact hplain
  · exact List.all_eq_true.mp hescape c hc

end Text

namespace Url

open Text

theorem plainExcept_iff {others : List Char} {c : Char} :
    plainExcept others c = true ↔ ' ' < c ∧ c.toNat < 0x7F ∧ c ∉ others := by
  unfold plainExcept
  simp [and_assoc]

theorem ne_of_plain {plain : Char → Bool} {c d : Char} (h : plain c = true)
    (hd : plain d = false) : c ≠ d := by
  rintro rfl
  rw [h] at hd
  cases hd

/-! ### Names and passwords -/

/-- A name and, if there is one, a password. -/
def credentials (name password : List Char) : List Char :=
  match password with
  | [] => name
  | c :: cs => name ++ ':' :: c :: cs

theorem userText_eq (cs : List Char) : userText cs =
    credentials (percentEncode plainInUser (cs.takeWhile (· ≠ ':')))
      (percentEncode plainInUser ((cs.dropWhile (· ≠ ':')).drop 1)) := by
  unfold userText
  dsimp only
  generalize percentEncode plainInUser ((cs.dropWhile (· ≠ ':')).drop 1) = password
  cases password with
  | nil => rfl
  | cons c cs => rfl

theorem userText_credentials {name password : List Char} (hn : ∀ c ∈ name, plainInUser c = true)
    (hp : ∀ c ∈ password, plainInUser c = true) :
    userText (credentials name password) = credentials name password := by
  have hcolon : ∀ c ∈ name, decide (c ≠ ':') = true := fun c hc =>
    decide_eq_true (ne_of_plain (hn c hc) (by decide))
  rw [userText_eq]
  cases password with
  | nil =>
    have htake : name.takeWhile (· ≠ ':') = name := List.takeWhile_eq_self_iff.mpr hcolon
    have hdrop : name.dropWhile (· ≠ ':') = [] := List.dropWhile_eq_nil_iff.mpr hcolon
    show credentials (percentEncode plainInUser (name.takeWhile (· ≠ ':')))
      (percentEncode plainInUser ((name.dropWhile (· ≠ ':')).drop 1)) = name
    rw [htake, hdrop, percentEncode_of_forall _ _ hn]
    rfl
  | cons p ps =>
    show credentials (percentEncode plainInUser ((name ++ ':' :: p :: ps).takeWhile (· ≠ ':')))
      (percentEncode plainInUser (((name ++ ':' :: p :: ps).dropWhile (· ≠ ':')).drop 1)) =
        name ++ ':' :: p :: ps
    rw [List.takeWhile_append_of_pos hcolon, List.dropWhile_append_of_pos hcolon,
      List.takeWhile_cons_of_neg (by simp), List.dropWhile_cons_of_neg (by simp), List.append_nil,
      List.drop_one, List.tail_cons, percentEncode_of_forall _ _ hn, percentEncode_of_forall _ _ hp]
    rfl

theorem mem_credentials {name password : List Char} {c : Char} (h : c ∈ credentials name password) :
    c ∈ name ∨ c = ':' ∨ c ∈ password := by
  cases password with
  | nil => exact .inl h
  | cons p ps =>
    rcases List.mem_append.mp h with h | h
    · exact .inl h
    · exact .inr (List.mem_cons.mp h)

/-- What is behind the last `@` of an authority is the server, for a server has none. -/
theorem splitUser_append (user : List Char) {server : List Char} (h : '@' ∉ server) :
    splitUser (user ++ '@' :: server) = (user, server) := by
  have hplain : ∀ c ∈ server.reverse, decide (c ≠ '@') = true := fun c hc =>
    decide_eq_true fun heq => h (heq ▸ List.mem_reverse.mp hc)
  have hbehind : ((user ++ '@' :: server).reverse.takeWhile (· ≠ '@')).reverse = server := by
    rw [List.reverse_append, List.reverse_cons, List.append_assoc, List.singleton_append,
      List.takeWhile_append_of_pos hplain, List.takeWhile_cons_of_neg (by simp), List.append_nil,
      List.reverse_reverse]
  have hlen : (user ++ '@' :: server).length - server.length - 1 = user.length := by
    rw [List.length_append, List.length_cons]
    omega
  unfold splitUser
  rw [if_pos (by simp)]
  dsimp only
  rw [hbehind, hlen, List.take_left]

theorem splitUser_of_not_mem {server : List Char} (h : '@' ∉ server) :
    splitUser server = ([], server) := by
  unfold splitUser
  rw [if_neg (by simpa using h)]

/-! ### Ports -/

theorem port?_eq_some {secure : Bool} {ds : List Char} {p : UInt16}
    (h : port? secure ds = some (some p)) : p.toNat ≠ defaultPort secure := by
  unfold port? at h
  dsimp only at h
  split at h
  · cases h
  rename_i hright
  split at h
  · cases h
  rename_i hother
  cases h
  simp only [Bool.or_eq_true, decide_eq_true_iff, not_or] at hright
  rw [UInt16.toNat_ofNat', Nat.mod_eq_of_lt (by omega)]
  exact fun heq => hother (.inr heq)

theorem port?_decimal {secure : Bool} {p : UInt16} (h : p.toNat ≠ defaultPort secure) :
    port? secure (decimal p.toNat) = some (some p) := by
  have hlt := p.toNat_lt
  have hall : (decimal p.toNat).all Char.isDigit = true :=
    List.all_eq_true.mpr fun c hc => isDigit_of_mem_decimal hc
  have hne : decimal p.toNat ≠ [] := Nat.toDigits_ne_nil
  unfold port?
  dsimp only
  rw [decimalValue_decimal, hall, if_neg (by simp; omega), if_neg (by simp [hne, h]),
    UInt16.ofNat_toNat]

/-! ### Paths -/

/-- A segment as a path has it: escaped, without slashes, and none of the dots. -/
structure IsSegment (segment : List Char) : Prop where
  plain : ∀ c ∈ segment, plainInPath c = true
  slash : ∀ c ∈ segment, isSlash c = false
  dot : isDot segment = false
  doubleDot : isDoubleDot segment = false

theorem isSegment_iff {segment : List Char} : IsSegment segment ↔
    segment.all (fun c => plainInPath c && !isSlash c) = true ∧ isDot segment = false ∧
      isDoubleDot segment = false := by
  simp only [List.all_eq_true, Bool.and_eq_true, Bool.not_eq_true']
  constructor
  · intro h
    exact ⟨fun c hc => ⟨h.plain c hc, h.slash c hc⟩, h.dot, h.doubleDot⟩
  · intro h
    exact ⟨fun c hc => (h.1 c hc).1, fun c hc => (h.1 c hc).2, h.2.1, h.2.2⟩

instance (segment : List Char) : Decidable (IsSegment segment) :=
  decidable_of_iff _ isSegment_iff.symm

theorem isSegment_nil : IsSegment [] := by decide

theorem mem_of_mem_parent {segment : List Char} {above : List (List Char)}
    (h : segment ∈ parent above) : segment ∈ above := by
  unfold parent at h
  split at h
  · exact h
  split at h
  · exact h
  · exact List.mem_cons_of_mem _ h

/-- With the dots carried out, segments in plain characters are as a path has them. -/
theorem isSegment_of_mem_resolveDots : ∀ {rest above : List (List Char)},
    (∀ s ∈ above, IsSegment s) →
    (∀ s ∈ rest, ∀ c ∈ s, plainInPath c = true ∧ isSlash c = false) →
    ∀ s ∈ resolveDots above rest, IsSegment s
  | [], above, habove, _ => fun s hs => habove s (List.mem_reverse.mp hs)
  | segment :: rest, above, habove, hrest => by
    obtain ⟨hsegment, hrest⟩ := List.forall_mem_cons.mp hrest
    have hkept : ∀ s ∈ (if isDoubleDot segment = true then parent above else above),
        IsSegment s := by
      split
      · exact fun s hs => habove s (mem_of_mem_parent hs)
      · exact habove
    unfold resolveDots
    dsimp only
    generalize (if isDoubleDot segment = true then parent above else above) = kept at hkept ⊢
    split
    · rename_i hdots
      simp only [Bool.and_eq_true, Bool.not_eq_true'] at hdots
      have hright : IsSegment segment := ⟨fun c hc => (hsegment c hc).1,
        fun c hc => (hsegment c hc).2, hdots.1, hdots.2⟩
      exact isSegment_of_mem_resolveDots (List.forall_mem_cons.mpr ⟨hright, hkept⟩) hrest
    split
    · exact isSegment_of_mem_resolveDots (List.forall_mem_cons.mpr ⟨isSegment_nil, hkept⟩) hrest
    · exact isSegment_of_mem_resolveDots hkept hrest

/-- A path has a segment at least: its last one stays, or leaves an empty one. -/
theorem resolveDots_ne_nil : ∀ {rest above : List (List Char)}, rest ≠ [] ∨ above ≠ [] →
    resolveDots above rest ≠ []
  | [], above, h => by
    rw [resolveDots]
    simpa using h
  | segment :: rest, above, _ => by
    unfold resolveDots
    dsimp only
    split
    · exact resolveDots_ne_nil (.inr (List.cons_ne_nil _ _))
    split
    · exact resolveDots_ne_nil (.inr (List.cons_ne_nil _ _))
    · rename_i hmore
      exact resolveDots_ne_nil (.inl hmore)

theorem resolveDots_of_forall : ∀ {rest above : List (List Char)}, (∀ s ∈ rest, IsSegment s) →
    resolveDots above rest = above.reverse ++ rest
  | [], above, _ => by rw [resolveDots, List.append_nil]
  | segment :: rest, above, h => by
    obtain ⟨hsegment, hrest⟩ := List.forall_mem_cons.mp h
    unfold resolveDots
    simp only [hsegment.dot, hsegment.doubleDot, Bool.false_eq_true, if_false, Bool.not_false,
      Bool.and_self, if_true]
    rw [resolveDots_of_forall hrest, List.reverse_cons, List.append_assoc, List.singleton_append]

theorem isSegment_of_mem_segments {cs segment : List Char} (h : segment ∈ segments cs) :
    IsSegment segment := by
  refine isSegment_of_mem_resolveDots (by simp) (fun s hs c hc => ?_) segment h
  obtain ⟨part, hpart, rfl⟩ := List.mem_map.mp hs
  refine ⟨plain_of_mem_percentEncode (by decide) hc, ?_⟩
  rcases mem_percentEncode hc with ⟨hmem, -⟩ | hescape
  · exact (mem_part hpart c hmem).2
  · have hall : ∀ c ∈ escapeChars, isSlash c = false := List.all_iff_forall_prop.mp (by decide)
    exact hall c hescape

theorem segments_ne_nil (cs : List Char) : segments cs ≠ [] := by
  refine resolveDots_ne_nil (.inl ?_)
  rw [ne_eq, List.map_eq_nil_iff]
  exact List.splitOnP_ne_nil _ _

theorem splitOnP_pathText : ∀ {first : List Char} {rest : List (List Char)},
    (∀ s ∈ first :: rest, IsSegment s) →
    (first ++ rest.flatMap ('/' :: ·)).splitOnP isSlash = first :: rest
  | first, [], h => by
    have hfirst := (h first List.mem_cons_self).slash
    rw [List.flatMap_nil, List.append_nil,
      List.splitOnP_eq_singleton fun c hc => by simp [hfirst c hc]]
  | first, next :: rest, h => by
    obtain ⟨hfirst, hrest⟩ := List.forall_mem_cons.mp h
    rw [List.flatMap_cons, List.cons_append, List.splitOnP_append_cons_of_forall_mem
      (fun c hc => by simp [hfirst.slash c hc]) '/' (by decide), splitOnP_pathText hrest]

/-- A path is taken apart into its segments. -/
theorem segments_pathText {path : List (List Char)} (hne : path ≠ [])
    (h : ∀ s ∈ path, IsSegment s) : segments (path.flatMap ('/' :: ·)) = path := by
  obtain ⟨first, rest, rfl⟩ := List.exists_cons_of_ne_nil hne
  have hencode : (first :: rest).map (percentEncode plainInPath) = first :: rest := by
    conv => rhs; rw [← List.map_id (first :: rest)]
    exact List.map_congr_left fun s hs => percentEncode_of_forall _ _ (h s hs).plain
  show resolveDots [] (((first ++ rest.flatMap ('/' :: ·)).splitOnP isSlash).map
    (percentEncode plainInPath)) = first :: rest
  rw [splitOnP_pathText h, hencode, resolveDots_of_forall h]
  rfl

/-! ### Whole URLs -/

/-- A URL as it is written: each part is in characters that may stand there. -/
structure IsWritten (u : Url) : Prop where
  user : ∃ name password, u.user = credentials name password ∧
    (∀ c ∈ name, plainInUser c = true) ∧ ∀ c ∈ password, plainInUser c = true
  host : u.host.IsRead
  port : ∀ p, u.port = some p → p.toNat ≠ defaultPort u.secure
  path_ne_nil : u.path ≠ []
  path : ∀ s ∈ u.path, IsSegment s
  query : ∀ q, u.query = some q → ∀ c ∈ q, plainInQuery c = true
  fragment : ∀ f, u.fragment = some f → ∀ c ∈ f, plainInFragment c = true

/-- What is read after a scheme is as it is written. -/
theorem isWritten_of_ofRest? {secure : Bool} {cs : List Char} {u : Url}
    (h : ofRest? secure cs = some u) : u.IsWritten ∧ u.secure = secure := by
  unfold ofRest? at h
  simp only [Option.bind_eq_bind, Option.bind_eq_some_iff, Option.pure_def, Option.some.injEq] at h
  obtain ⟨host, hhost, port, hport, rfl⟩ := h
  refine ⟨⟨⟨_, _, userText_eq _, fun c hc => ?_, fun c hc => ?_⟩, Host.isRead_of_parse? hhost,
    ?_, segments_ne_nil _, fun s hs => isSegment_of_mem_segments hs, ?_, ?_⟩, rfl⟩
  · exact plain_of_mem_percentEncode (by decide) hc
  · exact plain_of_mem_percentEncode (by decide) hc
  · rintro p rfl
    exact port?_eq_some hport
  · intro q hq c hc
    dsimp only at hq
    split at hq
    · cases hq
    · cases hq
      exact plain_of_mem_percentEncode (by decide) hc
  · intro f hf c hc
    dsimp only at hf
    split at hf
    · cases hf
    · cases hf
      exact plain_of_mem_percentEncode (by decide) hc

theorem isWritten_of_read {s : String} {u : Url} (h : read s = .web u) : u.IsWritten := by
  unfold read at h
  split at h
  · cases h
  split at h
  · split at h
    · rename_i hrest
      cases h
      exact (isWritten_of_ofRest? hrest).1
    · cases h
  · split at h <;> cases h

/-! ### The text in parts -/

def schemeText (secure : Bool) : List Char := if secure then "https:".toList else "http:".toList

/-- The host and the port. -/
def serverText (u : Url) : List Char :=
  u.host.text ++ behindHost (u.port.map fun p => decimal p.toNat)

def authorityText (u : Url) : List Char :=
  (if u.user = [] then [] else u.user ++ ['@']) ++ u.serverText

def queryText (u : Url) : List Char := (u.query.map ('?' :: ·)).getD []

def fragmentText (u : Url) : List Char := (u.fragment.map ('#' :: ·)).getD []

theorem toList_text (u : Url) : u.text.toList = schemeText u.secure ++ '/' :: '/' ::
    (u.authorityText ++ (u.pathText ++ (u.queryText ++ u.fragmentText))) := by
  have hscheme : (if u.secure then "https://" else "http://").toList =
      schemeText u.secure ++ ['/', '/'] := by
    cases u.secure <;> rfl
  unfold text
  simp only [String.toList_ofList]
  rw [hscheme]
  cases hport : u.port <;>
    simp [authorityText, serverText, behindHost, queryText, fragmentText, hport]

section
variable {mark c : Char} {o : Option (List Char)}

theorem mem_marked (h : c ∈ (o.map (mark :: ·)).getD []) :
    c = mark ∨ ∃ cs, o = some cs ∧ c ∈ cs := by
  cases o with
  | none => cases h
  | some cs => exact (List.mem_cons.mp h).imp_right fun hc => ⟨cs, rfl, hc⟩

theorem head?_marked (h : ((o.map (mark :: ·)).getD []).head? = some c) : c = mark := by
  cases o with
  | none => cases h
  | some cs => exact (Option.some.inj h).symm

/-- A part that is marked, or missing, is read back if its characters stand for themselves. -/
theorem encode_marked {plain : Char → Bool} (h : ∀ cs, o = some cs → ∀ c ∈ cs, plain c = true) :
    (if (o.map (mark :: ·)).getD [] = [] then none
      else some (percentEncode plain ((o.map (mark :: ·)).getD []).tail)) = o := by
  cases o with
  | none => rfl
  | some cs => exact congrArg some (percentEncode_of_forall _ _ (h cs rfl))

end

section
variable {u : Url}

theorem IsWritten.of_mem_serverText (h : u.IsWritten) {c : Char} (hc : c ∈ u.serverText) :
    ' ' < c ∧ endsAuthority c = false ∧ c ≠ '@' := by
  have hdigits : ∀ k < 10, ' ' < Nat.digitChar k ∧ endsAuthority (Nat.digitChar k) = false ∧
      Nat.digitChar k ≠ '@' := by decide
  rcases List.mem_append.mp hc with hc | hc
  · exact h.host.of_mem_text hc
  · cases hport : u.port with
    | none =>
      rw [hport] at hc
      cases hc
    | some p =>
      rw [hport] at hc
      rcases List.mem_cons.mp hc with rfl | hc
      · decide
      · obtain ⟨k, hk, rfl⟩ := exists_of_mem_toDigits (by decide) hc
        exact hdigits k hk

theorem of_plainInUser {c : Char} (h : plainInUser c = true) :
    ' ' < c ∧ endsAuthority c = false := by
  refine ⟨(plainExcept_iff.mp h).1, ?_⟩
  unfold endsAuthority isSlash
  simp [ne_of_plain h (d := '/') (by decide), ne_of_plain h (d := '\\') (by decide),
    ne_of_plain h (d := '?') (by decide), ne_of_plain h (d := '#') (by decide)]

theorem IsWritten.of_mem_user (h : u.IsWritten) {c : Char} (hc : c ∈ u.user) :
    ' ' < c ∧ endsAuthority c = false := by
  obtain ⟨name, password, huser, hname, hpassword⟩ := h.user
  rw [huser] at hc
  rcases mem_credentials hc with hc | rfl | hc
  · exact of_plainInUser (hname c hc)
  · decide
  · exact of_plainInUser (hpassword c hc)

theorem IsWritten.of_mem_authorityText (h : u.IsWritten) {c : Char} (hc : c ∈ u.authorityText) :
    ' ' < c ∧ endsAuthority c = false := by
  rcases List.mem_append.mp hc with hc | hc
  · split at hc
    · cases hc
    · rcases List.mem_append.mp hc with hc | hc
      · exact h.of_mem_user hc
      · rw [List.mem_singleton.mp hc]
        decide
  · exact ⟨(h.of_mem_serverText hc).1, (h.of_mem_serverText hc).2.1⟩

theorem IsWritten.authorityText_ne_nil (h : u.IsWritten) : u.authorityText ≠ [] := by
  unfold authorityText serverText
  simp [h.host.text_ne_nil]

/-- An authority is taken apart into the user and the server. -/
theorem IsWritten.splitUser_authorityText (h : u.IsWritten) :
    userText (splitUser u.authorityText).1 = u.user ∧
      (splitUser u.authorityText).2 = u.serverText := by
  have hserver : '@' ∉ u.serverText := fun hmem => (h.of_mem_serverText hmem).2.2 rfl
  unfold authorityText
  by_cases huser : u.user = []
  · rw [if_pos huser, List.nil_append, splitUser_of_not_mem hserver, huser]
    exact ⟨rfl, rfl⟩
  · rw [if_neg huser, List.append_assoc, List.singleton_append, splitUser_append _ hserver]
    obtain ⟨name, password, hcredentials, hname, hpassword⟩ := h.user
    rw [hcredentials, userText_credentials hname hpassword]
    exact ⟨rfl, rfl⟩

theorem IsWritten.port?_eq (h : u.IsWritten) :
    port? u.secure ((u.port.map fun p => decimal p.toNat).getD []) = some u.port := by
  cases hport : u.port with
  | none => rfl
  | some p => exact port?_decimal (h.port p hport)

theorem IsWritten.of_mem_pathText (h : u.IsWritten) {c : Char} (hc : c ∈ u.pathText) :
    ' ' < c ∧ c ≠ '?' ∧ c ≠ '#' := by
  obtain ⟨s, hs, hc⟩ := List.mem_flatMap.mp hc
  rcases List.mem_cons.mp hc with rfl | hc
  · decide
  · have hplain := (h.path s hs).plain c hc
    exact ⟨(plainExcept_iff.mp hplain).1, ne_of_plain hplain (by decide),
      ne_of_plain hplain (by decide)⟩

theorem IsWritten.of_mem_queryText (h : u.IsWritten) {c : Char} (hc : c ∈ u.queryText) :
    ' ' < c ∧ c ≠ '#' := by
  rcases mem_marked hc with rfl | ⟨q, hq, hc⟩
  · decide
  · have hplain := h.query q hq c hc
    exact ⟨(plainExcept_iff.mp hplain).1, ne_of_plain hplain (by decide)⟩

theorem IsWritten.of_mem_fragmentText (h : u.IsWritten) {c : Char} (hc : c ∈ u.fragmentText) :
    ' ' < c := by
  rcases mem_marked hc with rfl | ⟨f, hf, hc⟩
  · decide
  · exact (plainExcept_iff.mp (h.fragment f hf c hc)).1

theorem head?_behindPath {c : Char} (hc : (u.queryText ++ u.fragmentText).head? = some c) :
    c = '?' ∨ c = '#' := by
  rw [List.head?_append, Option.or_eq_some_iff] at hc
  exact hc.imp head?_marked fun hc => head?_marked hc.2

/-- What is read behind a scheme is the URL that is written there, with the host that is read from
the host's text. -/
theorem IsWritten.ofRest?_text (h : u.IsWritten) :
    ofRest? u.secure ('/' :: '/' ::
        (u.authorityText ++ (u.pathText ++ (u.queryText ++ u.fragmentText)))) =
      (Host.parse? u.host.text).map fun host => { u with host } := by
  generalize hbehind : u.pathText ++ (u.queryText ++ u.fragmentText) = behind
  have hslashes : ('/' :: '/' :: (u.authorityText ++ behind)).dropWhile isSlash =
      u.authorityText ++ behind := by
    obtain ⟨c, cs, hcs⟩ := List.exists_cons_of_ne_nil h.authorityText_ne_nil
    have hc := (h.of_mem_authorityText (hcs ▸ List.mem_cons_self)).2
    have hslash : ¬ isSlash c = true := by
      intro hslash
      rw [endsAuthority, hslash] at hc
      cases hc
    rw [List.dropWhile_cons_of_pos (by decide), List.dropWhile_cons_of_pos (by decide), hcs,
      List.cons_append, List.dropWhile_cons_of_neg hslash]
  have hauthority : ∀ c ∈ u.authorityText, (!endsAuthority c) = true := fun c hc => by
    rw [(h.of_mem_authorityText hc).2]
    rfl
  have hbehindHead : ∃ cs, behind = '/' :: cs := by
    obtain ⟨first, rest, hpath⟩ := List.exists_cons_of_ne_nil h.path_ne_nil
    rw [← hbehind, pathText, hpath]
    exact ⟨_, rfl⟩
  obtain ⟨behindTail, hbehindTail⟩ := hbehindHead
  have htake : (u.authorityText ++ behind).takeWhile (!endsAuthority ·) = u.authorityText := by
    rw [List.takeWhile_append_of_pos hauthority, hbehindTail,
      List.takeWhile_cons_of_neg (by decide), List.append_nil]
  have hdrop : (u.authorityText ++ behind).dropWhile (!endsAuthority ·) = behind := by
    rw [List.dropWhile_append_of_pos hauthority, hbehindTail,
      List.dropWhile_cons_of_neg (by decide)]
  have hpath : behind.span (fun c => c ≠ '?' && c ≠ '#') =
      (u.pathText, u.queryText ++ u.fragmentText) := by
    rw [← hbehind]
    refine span_append (fun c hc => ?_) (fun c hc => ?_)
    · have hc := h.of_mem_pathText hc
      simp [hc.2]
    · rcases head?_behindPath hc with rfl | rfl <;> rfl
  have hquery : (u.queryText ++ u.fragmentText).span (· ≠ '#') = (u.queryText, u.fragmentText) := by
    refine span_append (fun c hc => ?_) (fun c hc => ?_)
    · have hc := h.of_mem_queryText hc
      simp [hc.2]
    · rw [head?_marked hc]
      rfl
  have hserver : splitPort false u.serverText =
      (u.host.text, u.port.map fun p => decimal p.toNat) := splitPort_text h.host _
  have hsegments : segments u.pathText = u.path := segments_pathText h.path_ne_nil h.path
  have hqueryEq : (if u.queryText = [] then none
      else some (percentEncode plainInQuery u.queryText.tail)) = u.query := encode_marked h.query
  have hfragmentEq : (if u.fragmentText = [] then none
      else some (percentEncode plainInFragment u.fragmentText.tail)) = u.fragment :=
    encode_marked h.fragment
  unfold ofRest?
  simp only [hslashes, htake, hdrop, hpath, hquery, h.splitUser_authorityText, hserver, hsegments,
    h.port?_eq, hqueryEq, hfragmentEq, Option.bind_eq_bind, Option.bind_some, Option.pure_def]
  cases Host.parse? u.host.text <;> rfl

theorem IsWritten.lt_of_mem_text (h : u.IsWritten) {c : Char} (hc : c ∈ u.text.toList) :
    ' ' < c := by
  have hscheme : ∀ c ∈ schemeText u.secure, ' ' < c := by
    cases u.secure <;> exact List.all_iff_forall_prop.mp (by decide)
  rw [toList_text] at hc
  simp only [List.mem_append, List.mem_cons] at hc
  rcases hc with hc | rfl | rfl | hc | hc | hc | hc
  · exact hscheme c hc
  · decide
  · decide
  · exact (h.of_mem_authorityText hc).1
  · exact (h.of_mem_pathText hc).1
  · exact (h.of_mem_queryText hc).1
  · exact h.of_mem_fragmentText hc

/-- A text without blanks is clean. -/
theorem clean_of_forall {cs : List Char} (h : ∀ c ∈ cs, ' ' < c) : clean cs = cs := by
  have hblank : ∀ c ∈ cs, ¬ decide (c ≤ ' ') = true := fun c hc => by
    rw [decide_eq_true_iff, Char.not_le]
    exact h c hc
  have hfront : cs.dropWhile (· ≤ ' ') = cs := by
    cases cs with
    | nil => rfl
    | cons c cs => exact List.dropWhile_cons_of_neg (hblank c List.mem_cons_self)
  have hback : dropTrailing (· ≤ ' ') cs = cs :=
    dropTrailing_of_getLast? _ _ fun c hc => by
      simpa using hblank c (List.mem_of_getLast? hc)
  unfold clean
  rw [hfront, hback]
  refine List.filter_eq_self.mpr fun c hc => ?_
  have hne : ∀ d, d ≤ ' ' → c ≠ d := by
    rintro d hd rfl
    exact Char.not_lt.mpr hd (h c hc)
  simp [hne '\t' (by decide), hne '\n' (by decide), hne '\r' (by decide)]

theorem scheme?_text (secure : Bool) (rest : List Char) :
    scheme? (schemeText secure ++ rest) =
      some ((if secure then "https" else "http").toList, rest) := by
  cases secure <;> rfl

/-- **The text of a URL is read as that URL**, with the host that is read from the host's text. -/
theorem IsWritten.parse?_text (h : u.IsWritten) :
    parse? u.text = (Host.parse? u.host.text).map fun host => { u with host } := by
  have hclean := clean_of_forall fun c hc => h.lt_of_mem_text hc
  have hscheme : scheme? (clean u.text.toList) =
      some ((if u.secure then "https" else "http").toList, '/' :: '/' ::
        (u.authorityText ++ (u.pathText ++ (u.queryText ++ u.fragmentText)))) := by
    rw [hclean, toList_text, scheme?_text]
  have hsecure : decide ((if u.secure then "https" else "http").toList = "https".toList) =
      u.secure := by
    cases u.secure <;> rfl
  have hweb : (if u.secure then "https" else "http").toList = "http".toList ∨
      (if u.secure then "https" else "http").toList = "https".toList := by
    cases u.secure
    · exact .inl rfl
    · exact .inr rfl
  unfold parse? read
  simp only [hscheme]
  rw [if_pos hweb, hsecure, h.ofRest?_text]
  cases Host.parse? u.host.text <;> rfl

end

/-! ### Segments behind a URL -/

/-- A path without the empty segments at its end. -/
def trimmedPath (u : Url) : List (List Char) := u.path.rdropWhile (· = [])

/-- A URL with segments behind its text, which has no slashes at its end: they are put behind the
part that it ends with. -/
def extended (u : Url) (more : List (List Char)) : Url :=
  let behind (cs : List Char) := dropTrailing (· == '/') cs ++ more.flatMap ('/' :: ·)
  match u.query, u.fragment with
  | _, some f => { u with fragment := some (behind f) }
  | some q, none => { u with query := some (behind q) }
  | none, none => { u with path := u.trimmedPath ++ more }

section
variable {u : Url} {more : List (List Char)}

/-- The segments are behind the fragment, behind the query or behind the path. -/
theorem extended_cases (u : Url) (more : List (List Char)) :
    (∃ f, u.fragment = some f ∧ u.extended more =
      { u with fragment := some (dropTrailing (· == '/') f ++ more.flatMap ('/' :: ·)) }) ∨
    (∃ q, u.query = some q ∧ u.fragment = none ∧ u.extended more =
      { u with query := some (dropTrailing (· == '/') q ++ more.flatMap ('/' :: ·)) }) ∨
    (u.query = none ∧ u.fragment = none ∧
      u.extended more = { u with path := u.trimmedPath ++ more }) := by
  unfold extended
  split
  · rename_i f hf
    exact .inl ⟨f, hf, rfl⟩
  · rename_i q hq hf
    exact .inr (.inl ⟨q, hq, hf, rfl⟩)
  · rename_i hq hf
    exact .inr (.inr ⟨hq, hf, rfl⟩)

/-- Without slashes at its end, a path is without the empty segments there. -/
theorem flatMap_rdropWhile {path : List (List Char)} (h : ∀ s ∈ path, IsSegment s) :
    (path.rdropWhile (· = [])).flatMap ('/' :: ·) =
      dropTrailing (· == '/') (path.flatMap ('/' :: ·)) := by
  induction path using List.reverseRecOn with
  | nil => rfl
  | append_singleton path last ih =>
    have hpath : ∀ s ∈ path, IsSegment s := fun s hs => h s (List.mem_append_left _ hs)
    have hlast : IsSegment last := h last (by simp)
    rw [List.flatMap_append, List.flatMap_singleton]
    by_cases hempty : last = []
    · rw [List.rdropWhile_concat_pos _ _ _ (by simpa using hempty), ih hpath, hempty,
        dropTrailing_append_of_forall _ _ _ (by simp)]
    · have hkept : dropTrailing (· == '/') (path.flatMap ('/' :: ·) ++ '/' :: last) =
          path.flatMap ('/' :: ·) ++ '/' :: last := by
        refine dropTrailing_of_getLast? _ _ fun c hc => ?_
        have hmem : c ∈ last := by
          rw [List.getLast?_append_of_ne_nil _ (List.cons_ne_nil _ _),
            List.getLast?_cons_of_ne_nil hempty] at hc
          exact List.mem_of_getLast? hc
        have hslash := hlast.slash c hmem
        rw [isSlash, Bool.or_eq_false_iff] at hslash
        exact hslash.1
      rw [List.rdropWhile_concat_neg _ _ _ (by simpa using hempty), List.flatMap_append,
        List.flatMap_singleton, hkept]

@[simp] theorem secure_extended : (u.extended more).secure = u.secure := by
  unfold extended
  split <;> rfl

@[simp] theorem user_extended : (u.extended more).user = u.user := by
  unfold extended
  split <;> rfl

@[simp] theorem host_extended : (u.extended more).host = u.host := by
  unfold extended
  split <;> rfl

@[simp] theorem port_extended : (u.extended more).port = u.port := by
  unfold extended
  split <;> rfl

theorem extended_of_fragment {f : List Char} (h : u.fragment = some f) : u.extended more =
    { u with fragment := some (dropTrailing (· == '/') f ++ more.flatMap ('/' :: ·)) } := by
  unfold extended
  rw [h]

/-- A query gets the segments, if it is what the URL ends with. -/
theorem query_extended (h : u.fragment = none) : (u.extended more).query =
    u.query.map fun q => dropTrailing (· == '/') q ++ more.flatMap ('/' :: ·) := by
  rcases extended_cases u more with ⟨f, hf, -⟩ | ⟨q, hq, -, heq⟩ | ⟨hq, -, heq⟩
  · rw [h] at hf
    cases hf
  · rw [heq, hq]
    rfl
  · rw [heq, hq]
    rfl

/-- The path gets the segments, without slashes before them, if the URL ends with it. -/
theorem IsWritten.pathText_extended (h : u.IsWritten) (hq : u.query = none)
    (hf : u.fragment = none) : (u.extended more).pathText =
      dropTrailing (· == '/') u.pathText ++ more.flatMap ('/' :: ·) := by
  have heq : u.extended more = { u with path := u.trimmedPath ++ more } := by
    unfold extended
    rw [hq, hf]
  rw [heq, pathText, List.flatMap_append, trimmedPath, flatMap_rdropWhile h.path, pathText]

/-- The path of any other URL stays as it is. -/
theorem path_extended (h : u.query ≠ none ∨ u.fragment ≠ none) :
    (u.extended more).path = u.path := by
  rcases extended_cases u more with ⟨f, hf, heq⟩ | ⟨q, hq, hf, heq⟩ | ⟨hq, hf, heq⟩
  · rw [heq]
  · rw [heq]
  · rcases h with h | h
    · exact absurd hq h
    · exact absurd hf h

/-- What stands before the path. -/
def beforePath (u : Url) : List Char := schemeText u.secure ++ '/' :: '/' :: u.authorityText

def beforeQuery (u : Url) : List Char := u.beforePath ++ u.pathText ++ ['?']

def beforeFragment (u : Url) : List Char := u.beforePath ++ u.pathText ++ u.queryText ++ ['#']

theorem toList_text_of_fragment {f : List Char} (h : u.fragment = some f) :
    u.text.toList = u.beforeFragment ++ f := by
  rw [toList_text, fragmentText, h]
  simp [beforeFragment, beforePath]

theorem toList_text_of_query {q : List Char} (hq : u.query = some q) (hf : u.fragment = none) :
    u.text.toList = u.beforeQuery ++ q := by
  rw [toList_text, fragmentText, hf, queryText, hq]
  simp [beforeQuery, beforePath]

theorem toList_text_of_path (hq : u.query = none) (hf : u.fragment = none) :
    u.text.toList = u.beforePath ++ u.pathText := by
  rw [toList_text, fragmentText, hf, queryText, hq]
  simp [beforePath]

/-- An authority does not end in a slash. -/
theorem IsWritten.getLast?_beforePath (h : u.IsWritten) :
    ∃ c, u.beforePath.getLast? = some c ∧ (c == '/') = false := by
  obtain ⟨c, hc⟩ := Option.ne_none_iff_exists'.mp
    (List.getLast?_eq_none_iff.not.mpr h.authorityText_ne_nil)
  have hends := (h.of_mem_authorityText (List.mem_of_getLast? hc)).2
  simp only [endsAuthority, isSlash, Bool.or_eq_false_iff] at hends
  refine ⟨c, ?_, hends.1.1.1⟩
  show (schemeText u.secure ++ (['/', '/'] ++ u.authorityText)).getLast? = some c
  rw [← List.append_assoc, List.getLast?_append_of_ne_nil _ h.authorityText_ne_nil, hc]

/-- **Segments behind the text of a URL are segments behind its last part.** -/
theorem IsWritten.toList_text_extended (h : u.IsWritten) : (u.extended more).text.toList =
    dropTrailing (· == '/') u.text.toList ++ more.flatMap ('/' :: ·) := by
  rcases extended_cases u more with ⟨f, hf, heq⟩ | ⟨q, hq, hf, heq⟩ | ⟨hq, hf, heq⟩
  · have hlast : u.beforeFragment.getLast? = some '#' := List.getLast?_concat
    have hbefore : (u.extended more).beforeFragment = u.beforeFragment := by
      rw [heq]
      rfl
    have hfragment : (u.extended more).fragment =
        some (dropTrailing (· == '/') f ++ more.flatMap ('/' :: ·)) := by
      rw [heq]
    rw [toList_text_of_fragment hf, toList_text_of_fragment hfragment, hbefore,
      dropTrailing_append_of_getLast? hlast (by decide), List.append_assoc]
  · have hlast : u.beforeQuery.getLast? = some '?' := List.getLast?_concat
    have hbefore : (u.extended more).beforeQuery = u.beforeQuery ∧
        (u.extended more).fragment = none := by
      rw [heq]
      exact ⟨rfl, hf⟩
    have hquery : (u.extended more).query =
        some (dropTrailing (· == '/') q ++ more.flatMap ('/' :: ·)) := by
      rw [heq]
    rw [toList_text_of_query hq hf, toList_text_of_query hquery hbefore.2, hbefore.1,
      dropTrailing_append_of_getLast? hlast (by decide), List.append_assoc]
  · obtain ⟨c, hlast, hslash⟩ := h.getLast?_beforePath
    have hbefore : (u.extended more).beforePath = u.beforePath ∧
        (u.extended more).query = none ∧ (u.extended more).fragment = none := by
      rw [heq]
      exact ⟨rfl, hq, hf⟩
    rw [toList_text_of_path hq hf, toList_text_of_path hbefore.2.1 hbefore.2.2, hbefore.1,
      h.pathText_extended hq hf, dropTrailing_append_of_getLast? hlast hslash, List.append_assoc]

/-- A segment that can stand in any part of a URL. -/
def IsCommonSegment (segment : List Char) : Prop := IsSegment segment ∧ '\'' ∉ segment

instance (segment : List Char) : Decidable (IsCommonSegment segment) :=
  inferInstanceAs (Decidable (_ ∧ _))

theorem IsCommonSegment.plain {segment : List Char} (h : IsCommonSegment segment) {c : Char}
    (hc : c ∈ segment) : plainInQuery c = true ∧ plainInFragment c = true := by
  have hpath := plainExcept_iff.mp (h.1.plain c hc)
  have hquote : c ≠ '\'' := fun heq => h.2 (heq ▸ hc)
  have hothers : c ∉ ['"', '#', '<', '>', '\''] ∧ c ∉ ['"', '<', '>', '\x60'] := by
    have hpath := hpath.2.2
    simp only [List.mem_cons, not_or] at hpath
    simp [hpath, hquote]
  exact ⟨plainExcept_iff.mpr ⟨hpath.1, hpath.2.1, hothers.1⟩,
    plainExcept_iff.mpr ⟨hpath.1, hpath.2.1, hothers.2⟩⟩

/-- What stands for itself with slashes stands for itself behind a part without its slashes. -/
theorem plain_behind {plain : Char → Bool} {cs : List Char} (hslash : plain '/' = true)
    (hcs : ∀ c ∈ cs, plain c = true) (hmore : ∀ s ∈ more, ∀ c ∈ s, plain c = true) :
    ∀ c ∈ dropTrailing (· == '/') cs ++ more.flatMap ('/' :: ·), plain c = true := by
  intro c hc
  rcases List.mem_append.mp hc with hc | hc
  · exact hcs c ((Text.dropTrailing_prefix _ cs).subset hc)
  · obtain ⟨s, hs, hc⟩ := List.mem_flatMap.mp hc
    rcases List.mem_cons.mp hc with rfl | hc
    · exact hslash
    · exact hmore s hs c hc

/-- A URL with segments behind it is as it is written. -/
theorem IsWritten.extended (h : u.IsWritten) (hne : more ≠ [])
    (hmore : ∀ s ∈ more, IsCommonSegment s) : (u.extended more).IsWritten := by
  rcases extended_cases u more with ⟨f, hf, heq⟩ | ⟨q, hq, hf, heq⟩ | ⟨hq, hf, heq⟩
  · have hplain := plain_behind (by decide) (h.fragment f hf) fun s hs c hc =>
      ((hmore s hs).plain hc).2
    rw [heq]
    exact { h with
      fragment := fun f' hf' c hc => hplain c (Option.some.inj hf' ▸ hc) }
  · have hplain := plain_behind (by decide) (h.query q hq) fun s hs c hc =>
      ((hmore s hs).plain hc).1
    rw [heq]
    exact { h with
      query := fun q' hq' c hc => hplain c (Option.some.inj hq' ▸ hc) }
  · rw [heq]
    exact { h with
      path_ne_nil := List.append_ne_nil_of_right_ne_nil _ hne
      path := fun s hs => by
        rcases List.mem_append.mp hs with hs | hs
        · exact h.path s ((List.rdropWhile_prefix _ u.path).subset hs)
        · exact (hmore s hs).1 }

/-- **Segments put behind the text of a URL are read behind its last part**, unless its host has a
code that cannot be read. -/
theorem IsWritten.parse?_append (h : u.IsWritten) (hne : more ≠ [])
    (hmore : ∀ s ∈ more, IsCommonSegment s) {s : String}
    (hs : s.toList = dropTrailing (· == '/') u.text.toList ++ more.flatMap ('/' :: ·)) :
    parse? s = if u.host.HasReadableCodes then some (u.extended more) else none := by
  have htext : s = (u.extended more).text :=
    String.toList_inj.mp (hs.trans h.toList_text_extended.symm)
  have hcodes : (u.extended more).host.HasReadableCodes ↔ u.host.HasReadableCodes := by
    rw [host_extended]
  have hwritten := h.extended hne hmore
  rw [htext, hwritten.parse?_text, Host.parse?_text hwritten.host]
  simp only [hcodes]
  split <;> rfl

end

end Url
end LanInference
