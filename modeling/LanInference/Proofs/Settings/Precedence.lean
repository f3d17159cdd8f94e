/-
# Which layer gives a setting

Settings come in three layers. A variable that counts goes before the file, and the file before the
defaults, for each setting by itself. A file counts if its whole text is right (`Settings.IsRight`):
each assignment has the name of a setting and a value of its type, and none is made twice. Otherwise
it gives nothing, whatever else is in it.

What a layer says of a setting is told by relations (`Setting.Gives` for a variable's text,
`Setting.Takes` for a value in a file). The settings are told apart by reading each one
(`Setting.read`), so that one statement is about all of them. The assignments of a file are made one
after the other, and what a run of them leaves of a setting (`Settings.Leaves`) is by induction on
the run.

Key definitions: `Setting`, `Setting.read`, `Setting.Gives`, `Setting.Takes`, `Setting.Given`,
`Settings.Counts`, `Settings.Assigns`, `Settings.Over`.
Key theorems: `Toml.isWord_of_mem_assignments?`, `Settings.set?_eq_some_iff`,
`Settings.setAll?_eq_some`, `Settings.exists_setAll?`, `Settings.read_ofFile?`,
`Settings.read_applyEnvironment`, `Settings.exists_findSome?_paths`, `Settings.read_load_congr`,
`Settings.load_precedence`.
-/
import Mathlib.Data.List.Nodup
import LanInference.Proofs.Text.Digits
import LanInference.Proofs.Text.Utf8
import LanInference.Settings.Basic

namespace LanInference

/-! ### Integers in a file -/

namespace Toml

/-- A value that 64 bits with a sign hold, if it is an integer. -/
def IsWord : Scalar → Prop
  | .string _ => True
  | .integer i => -0x8000000000000000 ≤ i ∧ i < 0x8000000000000000

theorem bounds_of_word? {i j : Int} (h : word? i = some j) :
    -0x8000000000000000 ≤ j ∧ j < 0x8000000000000000 := by
  unfold word? at h
  split at h
  · cases h
    assumption
  · cases h

theorem bounds_of_based? {base : Nat} {cs rest : List Char} {i : Int}
    (h : based? base cs = some (i, rest)) : -0x8000000000000000 ≤ i ∧ i < 0x8000000000000000 := by
  obtain ⟨⟨ds, rest'⟩, -, h⟩ := Option.bind_eq_some_iff.mp h
  obtain ⟨j, hj, h⟩ := Option.bind_eq_some_iff.mp h
  cases h
  exact bounds_of_word? hj

theorem bounds_of_decimal? {negative : Bool} {cs rest : List Char} {i : Int}
    (h : decimal? negative cs = some (i, rest)) :
    -0x8000000000000000 ≤ i ∧ i < 0x8000000000000000 := by
  unfold decimal? at h
  split at h
  · cases h
    decide
  · obtain ⟨⟨ds, rest'⟩, -, h⟩ := Option.bind_eq_some_iff.mp h
    obtain ⟨j, hj, h⟩ := Option.bind_eq_some_iff.mp h
    cases h
    exact bounds_of_word? hj

theorem bounds_of_integer? {cs rest : List Char} {i : Int} (h : integer? cs = some (i, rest)) :
    -0x8000000000000000 ≤ i ∧ i < 0x8000000000000000 := by
  unfold integer? at h
  split at h
  · exact bounds_of_based? h
  · exact bounds_of_based? h
  · exact bounds_of_based? h
  · exact bounds_of_decimal? h
  · exact bounds_of_decimal? h
  · exact bounds_of_decimal? h

theorem isWord_of_scalar? {cs rest : List Char} {x : Scalar} (h : scalar? cs = some (x, rest)) :
    IsWord x := by
  unfold scalar? at h
  split at h
  · obtain ⟨y, -, h⟩ := Option.map_eq_some_iff.mp h
    cases h
    trivial
  · obtain ⟨y, -, h⟩ := Option.map_eq_some_iff.mp h
    cases h
    trivial
  · obtain ⟨⟨i, rest'⟩, hi, h⟩ := Option.map_eq_some_iff.mp h
    cases h
    exact bounds_of_integer? hi

theorem isWord_of_assignment? {cs rest : List Char} {a : String × Scalar}
    (h : assignment? cs = some (a, rest)) : IsWord a.2 := by
  obtain ⟨⟨name, rest'⟩, -, h⟩ := Option.bind_eq_some_iff.mp h
  dsimp only at h
  split at h
  · obtain ⟨⟨x, rest''⟩, hx, h⟩ := Option.bind_eq_some_iff.mp h
    obtain ⟨final, -, h⟩ := Option.bind_eq_some_iff.mp h
    cases h
    exact isWord_of_scalar? hx
  · cases h

theorem isWord_of_go : ∀ {n : Nat} {acc as : List (String × Scalar)} {cs : List Char},
    assignments?.go n acc cs = some as → (∀ a ∈ acc, IsWord a.2) → ∀ a ∈ as, IsWord a.2
  | n, acc, as, [], h, hacc => by
    have has : as = acc.reverse := by
      unfold assignments?.go at h
      exact (Option.some.inj h).symm
    rw [has]
    exact fun a ha => hacc a (List.mem_reverse.mp ha)
  | 0, _, _, _ :: _, h, _ => by
    unfold assignments?.go at h
    cases h
  | n + 1, acc, as, c :: cs, h, hacc => by
    unfold assignments?.go at h
    split at h
    · exact isWord_of_go h hacc
    · split at h
      · rename_i a rest ha
        exact isWord_of_go h (List.forall_mem_cons.mpr ⟨isWord_of_assignment? ha, hacc⟩)
      · cases h

/-- No integer of a document is larger than a word. -/
theorem isWord_of_mem_assignments? {text : List Char} {as : List (String × Scalar)}
    (h : assignments? text = some as) : ∀ a ∈ as, IsWord a.2 :=
  isWord_of_go h (by simp)

end Toml

/-! ### Settings one by one -/

inductive Setting where
  | serviceType
  | minPollSeconds
  | powerCheckSeconds
  | recoveryDir
  | openAiBaseUrl
  | openRouterBaseUrl
  | logFilter
  deriving Repr, DecidableEq

namespace Setting

/-- What a setting can be set to. -/
inductive Value where
  | text (s : String)
  | seconds (n : UInt64)
  deriving Repr, DecidableEq

def read (s : Settings) : Setting → Value
  | serviceType => .text s.serviceType
  | minPollSeconds => .seconds s.minPollSeconds
  | powerCheckSeconds => .seconds s.powerCheckSeconds
  | recoveryDir => .text s.recoveryDir
  | openAiBaseUrl => .text s.openAiBaseUrl
  | openRouterBaseUrl => .text s.openRouterBaseUrl
  | logFilter => .text s.logFilter

/-- The name of a setting in a file. -/
def key : Setting → String
  | serviceType => "service_type"
  | minPollSeconds => "min_poll_interval_secs"
  | powerCheckSeconds => "power_check_secs"
  | recoveryDir => "recovery_dir"
  | openAiBaseUrl => "openai_base_url"
  | openRouterBaseUrl => "openrouter_base_url"
  | logFilter => "log_filter"

/-- The variable that can give a setting. -/
def envName? : Setting → Option String
  | serviceType => some "LANLINK_SERVICE_TYPE"
  | minPollSeconds => some "LANLINK_MIN_POLL_SECS"
  | recoveryDir => some "LANLINK_RECOVERY_DIR"
  | logFilter => some "LANLINK_LOG"
  | _ => none

/-- Whether a setting is a number of seconds. -/
def isTime : Setting → Bool
  | minPollSeconds | powerCheckSeconds => true
  | _ => false

/-- The text of a variable gives a value: a number is one or more decimal digits, perhaps after a
plus sign, and fits in 64 bits; any other text that is not empty is taken as it is. -/
def Gives (f : Setting) (t : String) : Value → Prop
  | .text v => f.isTime = false ∧ t ≠ "" ∧ v = t
  | .seconds n => f.isTime = true ∧ ∃ ds, (t.toList = ds ∨ t.toList = '+' :: ds) ∧ ds ≠ [] ∧
      (∀ d ∈ ds, d.isDigit = true) ∧ n.toNat = Nat.ofDigitChars 10 ds 0

/-- A value in a file is one of the setting's type. -/
def Takes (f : Setting) : Toml.Scalar → Value → Prop
  | .string s, .text v => f.isTime = false ∧ v = s
  | .integer i, .seconds n => f.isTime = true ∧ (n.toNat : Int) = i
  | _, _ => False

/-- The environment gives the setting. -/
def Given (f : Setting) (env : Environment) (v : Value) : Prop :=
  ∃ name t, f.envName? = some name ∧ env name = some t ∧ f.Gives t v

/-- The settings with one of them set to a value of its type. -/
def write (s : Settings) : Setting → Value → Settings
  | serviceType, .text v => { s with serviceType := v }
  | minPollSeconds, .seconds n => { s with minPollSeconds := n }
  | powerCheckSeconds, .seconds n => { s with powerCheckSeconds := n }
  | recoveryDir, .text v => { s with recoveryDir := v }
  | openAiBaseUrl, .text v => { s with openAiBaseUrl := v }
  | openRouterBaseUrl, .text v => { s with openRouterBaseUrl := v }
  | logFilter, .text v => { s with logFilter := v }
  | _, _ => s

theorem key_inj {f g : Setting} : f.key = g.key ↔ f = g := by
  cases f <;> cases g <;> simp [key]

theorem takes_unique {f : Setting} {x : Toml.Scalar} {v w : Value} (hv : f.Takes x v)
    (hw : f.Takes x w) : v = w := by
  match x, v, w, hv, hw with
  | .string _, .text _, .text _, ⟨_, rfl⟩, ⟨_, rfl⟩ => rfl
  | .integer _, .seconds _, .seconds _, ⟨_, rfl⟩, ⟨_, h⟩ =>
    exact congrArg Value.seconds (UInt64.toNat.inj (Int.ofNat.inj h)).symm

theorem read_write {f : Setting} {x : Toml.Scalar} {v : Value} (h : f.Takes x v) (s : Settings) :
    f.read (f.write s v) = v := by
  cases x <;> cases v <;> cases f <;> simp_all [Takes, isTime, read, write]

theorem read_write_ne {f g : Setting} (h : g ≠ f) (s : Settings) (v : Value) :
    g.read (f.write s v) = g.read s := by
  cases v <;> cases f <;> cases g <;> first | rfl | exact absurd rfl h

end Setting

namespace Settings

open Setting (Value)

/-! ### The file -/

theorem seconds?_eq_some_iff {i : Int} (hi : i < 0x8000000000000000) {n : UInt64} :
    set?.seconds? i = some n ↔ (n.toNat : Int) = i := by
  unfold set?.seconds?
  have hn := n.toNat_lt
  constructor
  · intro h
    split at h
    · cases h
      rw [UInt64.toNat_ofNat']
      omega
    · cases h
  · rintro rfl
    rw [if_pos (by omega)]
    simp

/-- One assignment sets the setting of its name, to a value of its type. -/
theorem set?_eq_some_iff {s s' : Settings} {name : String} {x : Toml.Scalar}
    (hx : Toml.IsWord x) : s.set? name x = some s' ↔
      ∃ f : Setting, ∃ v, f.key = name ∧ f.Takes x v ∧ f.write s v = s' := by
  constructor
  · intro h
    unfold set? at h
    split at h
    · exact ⟨.serviceType, .text _, rfl, ⟨rfl, rfl⟩, Option.some.inj h⟩
    · obtain ⟨n, hn, h⟩ := Option.map_eq_some_iff.mp h
      exact ⟨.minPollSeconds, .seconds n, rfl, ⟨rfl, (seconds?_eq_some_iff hx.2).mp hn⟩, h⟩
    · obtain ⟨n, hn, h⟩ := Option.map_eq_some_iff.mp h
      exact ⟨.powerCheckSeconds, .seconds n, rfl, ⟨rfl, (seconds?_eq_some_iff hx.2).mp hn⟩, h⟩
    · exact ⟨.recoveryDir, .text _, rfl, ⟨rfl, rfl⟩, Option.some.inj h⟩
    · exact ⟨.openAiBaseUrl, .text _, rfl, ⟨rfl, rfl⟩, Option.some.inj h⟩
    · exact ⟨.openRouterBaseUrl, .text _, rfl, ⟨rfl, rfl⟩, Option.some.inj h⟩
    · exact ⟨.logFilter, .text _, rfl, ⟨rfl, rfl⟩, Option.some.inj h⟩
    · cases h
  · rintro ⟨f, v, rfl, hv, rfl⟩
    match x, v, hv with
    | .string t, .text _, ⟨htime, rfl⟩ => cases f <;> first | rfl | cases htime
    | .integer i, .seconds n, ⟨htime, hn⟩ =>
      have hseconds := (seconds?_eq_some_iff hx.2).mpr hn
      cases f with
      | minPollSeconds => simp [set?, Setting.key, Setting.write, hseconds]
      | powerCheckSeconds => simp [set?, Setting.key, Setting.write, hseconds]
      | _ => cases htime

/-- Assignments that are right behind others with these names. -/
structure Follows (seen : List String) (as : List (String × Toml.Scalar)) : Prop where
  fresh : ∀ a ∈ as, a.1 ∉ seen
  once : (as.map Prod.fst).Nodup
  typed : ∀ a ∈ as, ∃ f : Setting, ∃ v, f.key = a.1 ∧ f.Takes a.2 v

theorem follows_cons {seen : List String} {name : String} {x : Toml.Scalar}
    {as : List (String × Toml.Scalar)} : Follows seen ((name, x) :: as) ↔
      name ∉ seen ∧ (∃ f : Setting, ∃ v, f.key = name ∧ f.Takes x v) ∧
        Follows (name :: seen) as := by
  constructor
  · rintro ⟨hfresh, honce, htyped⟩
    obtain ⟨hname, hfresh⟩ := List.forall_mem_cons.mp hfresh
    obtain ⟨hfirst, htyped⟩ := List.forall_mem_cons.mp htyped
    rw [List.map_cons, List.nodup_cons] at honce
    refine ⟨hname, hfirst, ⟨fun a ha hmem => ?_, honce.2, htyped⟩⟩
    rcases List.mem_cons.mp hmem with heq | hseen
    · exact honce.1 (List.mem_map.mpr ⟨a, ha, heq⟩)
    · exact hfresh a ha hseen
  · rintro ⟨hname, hfirst, ⟨hfresh, honce, htyped⟩⟩
    refine ⟨List.forall_mem_cons.mpr ⟨hname, fun a ha hmem => ?_⟩, ?_,
      List.forall_mem_cons.mpr ⟨hfirst, htyped⟩⟩
    · exact hfresh a ha (List.mem_cons_of_mem _ hmem)
    · rw [List.map_cons, List.nodup_cons]
      refine ⟨fun hmem => ?_, honce⟩
      obtain ⟨a, ha, heq⟩ := List.mem_map.mp hmem
      exact hfresh a ha (heq ▸ List.mem_cons_self)

/-- What assignments make of a setting: the value of the one with its name, or what it was. -/
def Leaves (as : List (String × Toml.Scalar)) (f : Setting) (old new : Value) : Prop :=
  (∃ x, (f.key, x) ∈ as ∧ f.Takes x new) ∨ ((∀ x, (f.key, x) ∉ as) ∧ new = old)

/-- Assignments can be made one after the other if they are right, and then each setting has the
value that they say. -/
theorem setAll?_eq_some : ∀ {as : List (String × Toml.Scalar)} {s s' : Settings}
    {seen : List String}, (∀ a ∈ as, Toml.IsWord a.2) → s.setAll? seen as = some s' →
      Follows seen as ∧ ∀ f : Setting, Leaves as f (f.read s) (f.read s')
  | [], s, s', seen, _, h => by
    cases h
    exact ⟨⟨by simp, List.nodup_nil, by simp⟩, fun f => .inr ⟨by simp, rfl⟩⟩
  | (name, x) :: as, s, s', seen, hword, h => by
    obtain ⟨hx, hrest⟩ := List.forall_mem_cons.mp hword
    unfold setAll? at h
    split at h
    · cases h
    rename_i hseen
    split at h
    · rename_i t ht
      obtain ⟨f, v, rfl, hv, rfl⟩ := (set?_eq_some_iff hx).mp ht
      obtain ⟨hfollows, hleaves⟩ := setAll?_eq_some hrest h
      have hname : f.key ∉ seen := by simpa using hseen
      refine ⟨follows_cons.mpr ⟨hname, ⟨f, v, rfl, hv⟩, hfollows⟩, fun g => ?_⟩
      rcases hleaves g with ⟨y, hy, htakes⟩ | ⟨hnone, heq⟩
      · exact .inl ⟨y, List.mem_cons_of_mem _ hy, htakes⟩
      · by_cases hg : g = f
        · rw [hg] at heq ⊢
          rw [Setting.read_write hv] at heq
          exact .inl ⟨x, List.mem_cons_self, heq ▸ hv⟩
        · rw [Setting.read_write_ne hg] at heq
          refine .inr ⟨fun y hy => ?_, heq⟩
          rcases List.mem_cons.mp hy with hy | hy
          · exact hg (Setting.key_inj.mp (Prod.mk.inj hy).1)
          · exact hnone y hy
    · cases h

theorem exists_setAll? : ∀ {as : List (String × Toml.Scalar)} (s : Settings)
    {seen : List String}, (∀ a ∈ as, Toml.IsWord a.2) → Follows seen as →
      ∃ s', s.setAll? seen as = some s'
  | [], s, _, _, _ => ⟨s, rfl⟩
  | (name, x) :: as, s, seen, hword, hright => by
    obtain ⟨hx, hrest⟩ := List.forall_mem_cons.mp hword
    obtain ⟨hname, ⟨f, v, hf, hv⟩, hfollows⟩ := follows_cons.mp hright
    have hset : s.set? name x = some (f.write s v) := (set?_eq_some_iff hx).mpr ⟨f, v, hf, hv, rfl⟩
    obtain ⟨s', hs'⟩ := exists_setAll? (f.write s v) hrest hfollows
    refine ⟨s', ?_⟩
    unfold setAll?
    rw [if_neg (by simpa using hname), hset]
    exact hs'

/-- The assignments of a document are right: none is made twice, and each has the name of a setting
and a value of its type. -/
def IsRight (as : List (String × Toml.Scalar)) : Prop :=
  (as.map Prod.fst).Nodup ∧ ∀ a ∈ as, ∃ f : Setting, ∃ v, f.key = a.1 ∧ f.Takes a.2 v

/-- A file that was found has text, the whole text is a document, and its assignments are right. -/
def Counts (file : Option File) (as : List (String × Toml.Scalar)) : Prop :=
  ∃ text, file = some (.bytes (Utf8.encode text)) ∧ Toml.assignments? text = some as ∧ IsRight as

/-- The file counts and sets the setting. -/
def Assigns (file : Option File) (f : Setting) (v : Value) : Prop :=
  ∃ as x, Counts file as ∧ (f.key, x) ∈ as ∧ f.Takes x v

theorem follows_nil_iff {as : List (String × Toml.Scalar)} : Follows [] as ↔ IsRight as :=
  ⟨fun h => ⟨h.once, h.typed⟩, fun h => ⟨by simp, h.1, h.2⟩⟩

/-- A text has settings if it is a document with right assignments. -/
theorem ofText?_eq_some {env : Environment} {text : List Char} {s : Settings}
    (h : ofText? env text = some s) : ∃ as, Toml.assignments? text = some as ∧ IsRight as ∧
      ∀ f : Setting, Leaves as f (f.read (defaults env)) (f.read s) := by
  obtain ⟨as, has, h⟩ := Option.bind_eq_some_iff.mp h
  obtain ⟨hright, hleaves⟩ := setAll?_eq_some (Toml.isWord_of_mem_assignments? has) h
  exact ⟨as, has, follows_nil_iff.mp hright, hleaves⟩

/-- A file gives settings if it counts, and then those that it assigns over the defaults. -/
theorem ofFile?_eq_some {env : Environment} {file : Option File} {s : Settings}
    (h : file.bind (ofFile? env) = some s) : ∃ as, Counts file as ∧
      ∀ f : Setting, Leaves as f (f.read (defaults env)) (f.read s) := by
  obtain ⟨found, rfl, h⟩ := Option.bind_eq_some_iff.mp h
  cases found with
  | bytes bs =>
    replace h : (Utf8.decode? bs).bind (ofText? env) = some s := h
    obtain ⟨text, htext, h⟩ := Option.bind_eq_some_iff.mp h
    obtain ⟨as, has, hright, hleaves⟩ := ofText?_eq_some h
    exact ⟨as, ⟨text, by rw [Utf8.decode?_eq_some_iff.mp htext], has, hright⟩, hleaves⟩
  | unreadable => cases h

theorem exists_ofFile? (env : Environment) {file : Option File}
    {as : List (String × Toml.Scalar)} (h : Counts file as) :
    ∃ s, file.bind (ofFile? env) = some s := by
  obtain ⟨text, rfl, has, hright⟩ := h
  obtain ⟨s, hs⟩ := exists_setAll? (defaults env) (Toml.isWord_of_mem_assignments? has)
    (follows_nil_iff.mpr hright)
  refine ⟨s, ?_⟩
  show (Utf8.decode? (Utf8.encode text)).bind (ofText? env) = some s
  rw [Utf8.decode?_eq_some_iff.mpr rfl, Option.bind_some, ofText?, has, Option.bind_some, hs]

theorem counts_unique {file : Option File} {as bs : List (String × Toml.Scalar)}
    (ha : Counts file as) (hb : Counts file bs) : as = bs := by
  obtain ⟨text, rfl, has, -⟩ := ha
  obtain ⟨text', heq, hbs, -⟩ := hb
  have hbytes : Utf8.encode text = Utf8.encode text' := by
    injection heq with heq
    injection heq
  have htext : text = text' := by
    have h := Utf8.decode?_eq_some_iff.mpr hbytes
    rw [Utf8.decode?_eq_some_iff.mpr rfl] at h
    exact Option.some.inj h
  rw [htext, hbs] at has
  exact (Option.some.inj has).symm

/-! ### Layers -/

/-- A layer goes before what is below it: what it gives is taken, and otherwise what is below. -/
def Over (layer : Value → Prop) (below result : Value) : Prop :=
  (∀ v, layer v → result = v) ∧ ((∀ v, ¬ layer v) → result = below)

theorem over_of_leaves {file : Option File} {as : List (String × Toml.Scalar)} {f : Setting}
    {old new : Value} (hcounts : Counts file as) (h : Leaves as f old new) :
    Over (Assigns file f) old new := by
  rcases h with ⟨x, hx, htakes⟩ | ⟨hnone, rfl⟩
  · refine ⟨fun v hv => ?_, fun hnever => absurd ⟨as, x, hcounts, hx, htakes⟩ (hnever new)⟩
    obtain ⟨bs, y, hbs, hy, hv⟩ := hv
    rw [counts_unique hbs hcounts] at hy
    obtain ⟨-, -, -, honce, -⟩ := hcounts
    have hxy : (f.key, x) = (f.key, y) := List.inj_on_of_nodup_map honce hx hy rfl
    exact Setting.takes_unique htakes ((Prod.mk.inj hxy).2 ▸ hv)
  · refine ⟨fun v hv => ?_, fun _ => rfl⟩
    obtain ⟨bs, y, hbs, hy, -⟩ := hv
    rw [counts_unique hbs hcounts] at hy
    exact absurd hy (hnone y)

/-- The settings before the environment is asked, with what the file assigns over the defaults. -/
theorem read_ofFile? (env : Environment) (file : Option File) (f : Setting) :
    Over (Assigns file f) (f.read (defaults env))
      (f.read ((file.bind (ofFile? env)).getD (defaults env))) := by
  cases hs : file.bind (ofFile? env) with
  | some s =>
    obtain ⟨as, hcounts, hleaves⟩ := ofFile?_eq_some hs
    exact over_of_leaves hcounts (hleaves f)
  | none =>
    refine ⟨fun v hv => ?_, fun _ => rfl⟩
    obtain ⟨as, x, hcounts, -⟩ := hv
    obtain ⟨s, hs'⟩ := exists_ofFile? env hcounts
    rw [hs] at hs'
    cases hs'

/-- A layer that is an option, with a way to make a value of what it holds. -/
theorem over_getD {α : Type} {layer : Value → Prop} {wrap : α → Value} {o : Option α}
    (h : ∀ v, layer v ↔ ∃ a, o = some a ∧ v = wrap a) (old : α) :
    Over layer (wrap old) (wrap (o.getD old)) := by
  cases o with
  | some a =>
    refine ⟨fun v hv => ?_, fun hnone => absurd ((h _).mpr ⟨a, rfl, rfl⟩) (hnone _)⟩
    obtain ⟨b, hb, rfl⟩ := (h v).mp hv
    cases hb
    rfl
  | none =>
    refine ⟨fun v hv => ?_, fun _ => rfl⟩
    obtain ⟨b, hb, -⟩ := (h v).mp hv
    cases hb

theorem given_text_iff {f : Setting} {name : String} (hf : f.envName? = some name)
    (htime : f.isTime = false) {env : Environment} (v : Value) :
    f.Given env v ↔ ∃ t, nonEmpty? env name = some t ∧ v = .text t := by
  unfold nonEmpty?
  constructor
  · rintro ⟨name', t, hname, ht, hgives⟩
    rw [hf] at hname
    cases hname
    cases v with
    | text u =>
      obtain ⟨-, hne, rfl⟩ := hgives
      exact ⟨u, Option.filter_eq_some_iff.mpr ⟨ht, by simpa using hne⟩, rfl⟩
    | seconds n =>
      cases htime.symm.trans hgives.1
  · rintro ⟨t, ht, rfl⟩
    obtain ⟨ht, hne⟩ := Option.filter_eq_some_iff.mp ht
    exact ⟨name, t, hf, ht, htime, by simpa using hne, rfl⟩

theorem given_seconds_iff {f : Setting} {name : String} (hf : f.envName? = some name)
    (htime : f.isTime = true) {env : Environment} (v : Value) :
    f.Given env v ↔ ∃ n, (((env name).bind fun t =>
      Text.natural? UInt64.size t.toList).map UInt64.ofNat) = some n ∧ v = .seconds n := by
  constructor
  · rintro ⟨name', t, hname, ht, hgives⟩
    rw [hf] at hname
    cases hname
    cases v with
    | text u =>
      cases htime.symm.trans hgives.1
    | seconds n =>
      obtain ⟨-, ds, hds, hne, hall, hn⟩ := hgives
      have hnat : Text.natural? UInt64.size t.toList = some n.toNat :=
        Text.natural?_eq_some_iff.mpr ⟨n.toNat_lt, ds, hds, hne, hall, hn.symm⟩
      refine ⟨n, ?_, rfl⟩
      rw [ht, Option.bind_some, hnat, Option.map_some, UInt64.ofNat_toNat]
  · rintro ⟨n, hn, rfl⟩
    obtain ⟨m, hm, rfl⟩ := Option.map_eq_some_iff.mp hn
    obtain ⟨t, ht, hm⟩ := Option.bind_eq_some_iff.mp hm
    obtain ⟨hlt, ds, hds, hne, hall, hvalue⟩ := Text.natural?_eq_some_iff.mp hm
    refine ⟨name, t, hf, ht, htime, ds, hds, hne, hall, ?_⟩
    rw [hvalue]
    exact UInt64.toNat_ofNat_of_lt' hlt

/-- The environment goes before the settings that it is applied to. -/
theorem read_applyEnvironment (env : Environment) (s : Settings) (f : Setting) :
    Over (f.Given env) (f.read s) (f.read (applyEnvironment env s)) := by
  have hnever : f.envName? = none → ∀ v, ¬ f.Given env v := by
    rintro hf v ⟨name, t, hname, -⟩
    rw [hf] at hname
    cases hname
  cases f with
  | serviceType => exact over_getD (given_text_iff rfl rfl) s.serviceType
  | minPollSeconds => exact over_getD (given_seconds_iff rfl rfl) s.minPollSeconds
  | recoveryDir => exact over_getD (given_text_iff rfl rfl) s.recoveryDir
  | logFilter => exact over_getD (given_text_iff rfl rfl) s.logFilter
  | _ => exact ⟨fun v hv => absurd hv (hnever rfl v), fun _ => rfl⟩

theorem over_unique {layer : Value → Prop} {below a b : Value} (ha : Over layer below a)
    (hb : Over layer below b) : a = b := by
  by_cases h : ∃ v, layer v
  · obtain ⟨v, hv⟩ := h
    rw [ha.1 v hv, hb.1 v hv]
  · have hnone : ∀ v, ¬ layer v := fun v hv => h ⟨v, hv⟩
    rw [ha.2 hnone, hb.2 hnone]

/-! ### Which variables a setting depends on -/

theorem defaults_congr {env env' : Environment} (hhome : env' "HOME" = env "HOME")
    (hstate : env' "XDG_STATE_HOME" = env "XDG_STATE_HOME") : defaults env' = defaults env := by
  unfold defaults defaultRecoveryDir
  rw [hhome, hstate]

theorem ofFile?_congr {env env' : Environment} (h : defaults env' = defaults env) :
    ofFile? env' = ofFile? env := by
  funext file
  unfold ofFile? ofText?
  rw [h]

theorem paths_congr {env env' : Environment} (hhome : env' "HOME" = env "HOME") :
    paths env' = paths env := by
  unfold paths
  rw [hhome]

/-- There is always a place to look for a file, so any file can be the one that is found. -/
theorem exists_findSome?_paths (env : Environment) (file : Option File) :
    ∃ files : String → Option File, (paths env).findSome? files = file := by
  refine ⟨fun _ => file, ?_⟩
  obtain ⟨path, rest, hpaths⟩ : ∃ path rest, paths env = path :: rest :=
    List.exists_cons_of_ne_nil (List.append_ne_nil_of_right_ne_nil _ (List.cons_ne_nil _ _))
  cases file with
  | none => exact List.findSome?_eq_none_iff.mpr fun _ _ => rfl
  | some found => rw [hpaths, List.findSome?_cons]

theorem given_congr {f : Setting} {env env' : Environment}
    (h : ∀ name, f.envName? = some name → env' name = env name) :
    f.Given env' = f.Given env := by
  funext v
  refine propext ⟨?_, ?_⟩
  · rintro ⟨name, t, hname, ht, hgives⟩
    exact ⟨name, t, hname, h name hname ▸ ht, hgives⟩
  · rintro ⟨name, t, hname, ht, hgives⟩
    exact ⟨name, t, hname, (h name hname).trans ht, hgives⟩

/-- A setting does not change with the variables of the other settings. -/
theorem read_load_congr (files : String → Option File) {env env' : Environment} (f : Setting)
    (h : ∀ name, env' name = env name ∨
      "LANLINK_".toList <+: name.toList ∧ f.envName? ≠ some name) :
    f.read (load env' ((paths env').findSome? files)) =
      f.read (load env ((paths env).findSome? files)) := by
  have hhome : env' "HOME" = env "HOME" :=
    (h "HOME").resolve_right fun hname => absurd hname.1 (by decide)
  have hstate : env' "XDG_STATE_HOME" = env "XDG_STATE_HOME" :=
    (h "XDG_STATE_HOME").resolve_right fun hname => absurd hname.1 (by decide)
  have hgiven : f.Given env' = f.Given env :=
    given_congr fun name hname => (h name).resolve_right fun hother => hother.2 hname
  have hdefaults := defaults_congr hhome hstate
  have hnew := read_applyEnvironment env'
    ((((paths env).findSome? files).bind (ofFile? env)).getD (defaults env)) f
  rw [hgiven] at hnew
  unfold load
  rw [paths_congr hhome, ofFile?_congr hdefaults, hdefaults]
  exact over_unique hnew (read_applyEnvironment env _ f)

/-- **Each setting comes from the first layer that gives it**: the environment, then the file that
was found if all of it is right, then the defaults. A file that is not right is as good as none, the
variable of one setting does not change another, and no interval is shorter than a second. The file
that was found can be any (`exists_findSome?_paths`). -/
theorem load_precedence (files : String → Option File) (env : Environment) :
    let file := (paths env).findSome? files
    let s := load env file
    (∀ f : Setting,
      (∀ v, f.Given env v → f.read s = v) ∧
      (∀ v, (∀ w, ¬ f.Given env w) → Assigns file f v → f.read s = v) ∧
      ((∀ w, ¬ f.Given env w) → (∀ w, ¬ Assigns file f w) →
        f.read s = f.read (defaults env))) ∧
    ((∀ as, ¬ Counts file as) → s = load env none) ∧
    (∀ (f : Setting) (env' : Environment),
      (∀ name, env' name = env name ∨
        "LANLINK_".toList <+: name.toList ∧ f.envName? ≠ some name) →
      f.read (load env' ((paths env').findSome? files)) = f.read s) ∧
    1000 ≤ s.minPollInterval ∧ 1000 ≤ s.powerCheckInterval := by
  intro file s
  refine ⟨fun f => ?_, fun hnone => ?_, fun f env' h => read_load_congr files f h, ?_, ?_⟩
  · obtain ⟨hgiven, hother⟩ :=
      read_applyEnvironment env ((file.bind (ofFile? env)).getD (defaults env)) f
    obtain ⟨hassigned, hdefault⟩ := read_ofFile? env file f
    exact ⟨hgiven, fun v hnot hv => (hother hnot).trans (hassigned v hv),
      fun hnot hunset => (hother hnot).trans (hdefault hunset)⟩
  · have hfile : file.bind (ofFile? env) = none := by
      cases hs : file.bind (ofFile? env) with
      | some t =>
        obtain ⟨as, has, -⟩ := ofFile?_eq_some hs
        exact absurd has (hnone as)
      | none => rfl
    show applyEnvironment env ((file.bind (ofFile? env)).getD (defaults env)) = load env none
    rw [hfile]
    rfl
  · unfold minPollInterval
    omega
  · unfold powerCheckInterval
    omega

/-- A variable goes before the file for one setting, the file before the defaults for another, and
an empty variable is no setting. -/
theorem load_precedence_layered :
    let env : Environment := fun name =>
      if name = "HOME" then some "/h" else if name = "LANLINK_LOG" then some "debug"
      else if name = "LANLINK_SERVICE_TYPE" then some "" else none
    let text := "log_filter = \"warn\"\nmin_poll_interval_secs = 45 # slow\n".toList
    let file := File.bytes (Utf8.encode text)
    let s := load env (some file)
    s.logFilter = "debug" ∧ s.minPollSeconds = 45 ∧ s.serviceType = "_http._tcp.local" ∧
      1000 ≤ s.minPollInterval := by
  intro env text file s
  obtain ⟨files, hfile⟩ := exists_findSome?_paths env (some file)
  have hcounts : Counts (some file)
      [("log_filter", .string "warn"), ("min_poll_interval_secs", .integer 45)] :=
    ⟨text, rfl, by decide, by decide, by
      simp only [List.forall_mem_cons]
      exact ⟨⟨.logFilter, .text "warn", rfl, rfl, rfl⟩,
        ⟨.minPollSeconds, .seconds 45, rfl, rfl, rfl⟩, by simp⟩⟩
  obtain ⟨hlayers, -, -, hpoll, -⟩ := load_precedence files env
  rw [hfile] at hlayers hpoll
  refine ⟨?_, ?_, ?_, hpoll⟩
  · have hlog := (hlayers .logFilter).1 (.text "debug")
      ⟨"LANLINK_LOG", "debug", rfl, rfl, rfl, by decide, rfl⟩
    exact Value.text.inj hlog
  · have hnot : ∀ w, ¬ Setting.minPollSeconds.Given env w := by
      rintro w ⟨name, t, hname, ht, -⟩
      cases hname
      cases ht
    have hmin := (hlayers .minPollSeconds).2.1 (.seconds 45) hnot
      ⟨_, .integer 45, hcounts, by simp [Setting.key], rfl, rfl⟩
    exact Value.seconds.inj hmin
  · have hnot : ∀ w, ¬ Setting.serviceType.Given env w := by
      rintro w ⟨name, t, hname, ht, hgives⟩
      cases hname
      cases ht
      cases w with
      | text v => exact hgives.2.1 rfl
      | seconds n => cases hgives.1
    have hunset : ∀ w, ¬ Assigns (some file) .serviceType w := by
      rintro w ⟨as, x, has, hx, -⟩
      rw [counts_unique has hcounts] at hx
      simp [Setting.key] at hx
    exact Value.text.inj ((hlayers .serviceType).2.2 hnot hunset)

end Settings
end LanInference
