/-
# What a line decodes to

A line that is an object decodes to what the members say that the format knows, whatever the order
of the members, however the text is spaced and spelled, and whatever else the object holds. The
known members are listed with their types. If every key is a text, and each known member comes at
most once and then with a value of its type, the event follows from a fixed order of priority;
otherwise there is none.

A server-sent line counts only after `data:`, and its payload may be the mark that ends the stream.

Key definitions: `WellTyped`, `Decodes`, `Reads`, `Ndjson.IsLine`, `Ndjson.Line.types`,
`Ndjson.Line.Describes`, `Ndjson.Line.Yields`, `Sse.IsLine`, `Sse.Chunk.types`,
`Sse.Chunk.Describes`, `Sse.Chunk.Yields`.
Key theorems: `Decodes.of_reads`, `Ndjson.decodes`, `Sse.decodes`, `WireFormat.lines_decode`.
-/
import LanInference.Proofs.Json.Members
import LanInference.Wire.Adapter

namespace LanInference

open Json (Node Piece Optionally Defaulted Single)

/-! ### Known members -/

/-- The members that a format knows, each with the values that its type accepts. -/
abbrev MemberTypes := List (String × (Node → Prop))

/-- A value that may be null besides. -/
def Nullable (Accepts : Node → Prop) (x : Node) : Prop := x = .null ∨ Accepts x

/-- Each known member comes at most once, with a value of its type. -/
def WellTyped (types : MemberTypes) (get : String → List Node) : Prop :=
  ∀ m ∈ types, get m.1 = [] ∨ ∃ x, get m.1 = [x] ∧ m.2 x

/-- How the lines that are objects decode, whose keys are texts: to what their known members say if
these have their types, and to nothing otherwise, so in particular if one comes twice or has another
type. Nothing counts but the values of the known members. A key that is no text silences its
line. -/
structure Decodes {α : Type} (types : MemberTypes)
    (IsLine : List (List Piece × Node) → List Char → Prop)
    (Describes : (String → List Node) → α → Prop) (Yields : α → Event → Prop)
    (event? : List Char → Option Event) : Prop where
  typed : ∀ {ms line}, IsLine ms line → Node.TextKeys ms → WellTyped types (Node.named ms) →
    (∃ a, Describes (Node.named ms) a) ∧
      ∀ a, Describes (Node.named ms) a → ∀ e, event? line = some e ↔ Yields a e
  untyped : ∀ {ms line}, IsLine ms line → ¬ WellTyped types (Node.named ms) →
    event? line = none
  twice : ∀ {ms line}, IsLine ms line → ∀ m ∈ types, 2 ≤ (Node.named ms m.1).length →
    event? line = none
  illTyped : ∀ {ms line}, IsLine ms line → ∀ m ∈ types, ∀ x ∈ Node.named ms m.1, ¬ m.2 x →
    event? line = none
  same : ∀ {ms ms' line line'}, IsLine ms line → IsLine ms' line' → Node.TextKeys ms →
    Node.TextKeys ms' → (∀ m ∈ types, (Node.named ms m.1).Perm (Node.named ms' m.1)) →
    event? line = event? line'
  reordered : ∀ {ms ms' line line'}, IsLine ms line → IsLine ms' line' → ms.Perm ms' →
    event? line = event? line'
  keys : ∀ {ms line}, IsLine ms line → ¬ Node.TextKeys ms → event? line = none

section

variable {α : Type} {types : MemberTypes} {get get' : String → List Node}
  {IsLine : List (List Piece × Node) → List Char → Prop}
  {Describes : (String → List Node) → α → Prop} {Yields : α → Event → Prop}
  {event? : List Char → Option Event} {read? : Node → Option α} {eventOf? : α → Option Event}

theorem WellTyped.length_le_one (h : WellTyped types get) : ∀ m ∈ types, (get m.1).length ≤ 1 := by
  intro m hm
  rcases h m hm with hnone | ⟨x, hx, -⟩
  · simp [hnone]
  · simp [hx]

theorem WellTyped.eq_of_perm (h : WellTyped types get)
    (hp : ∀ m ∈ types, (get m.1).Perm (get' m.1)) : ∀ m ∈ types, get m.1 = get' m.1 :=
  fun m hm => Json.perm_eq_of_length_le (h.length_le_one m hm) (hp m hm)

/-- A description is read off the known members of a record, each of which must have its type. -/
structure Reads (types : MemberTypes) (Describes : (String → List Node) → α → Prop)
    (read? : Node → Option α) : Prop where
  record : ∀ {x a}, read? x = some a ↔ ∃ fs, x.record? (types.map (·.1)) 0 = some fs ∧
    Describes (fun name => (fs.get? name).toList) a
  exists_iff : ∀ {get}, (∃ a, Describes get a) ↔ WellTyped types get
  congr : ∀ {get get' a}, (∀ m ∈ types, get m.1 = get' m.1) → Describes get a → Describes get' a

/-- An object is read if its keys are texts and its members give a description. -/
theorem Reads.object (h : Reads types Describes read?) {ms : List (List Piece × Node)} {a : α} :
    read? (.object ms) = some a ↔ Node.TextKeys ms ∧ Describes (Node.named ms) a := by
  have hget : ∀ {fs : Json.Fields},
      (∀ name ∈ types.map (·.1), (fs.get? name).toList = Node.named ms name) →
      ∀ m ∈ types, (fs.get? m.1).toList = Node.named ms m.1 :=
    fun hnamed m hm => hnamed m.1 (List.mem_map_of_mem hm)
  rw [h.record]
  constructor
  · rintro ⟨fs, hfs, ha⟩
    obtain ⟨hkeys, hnamed⟩ := Node.record?_object hfs
    exact ⟨hkeys, h.congr (hget hnamed) ha⟩
  · rintro ⟨hkeys, ha⟩
    have hty : WellTyped types (Node.named ms) := h.exists_iff.mp ⟨a, ha⟩
    have hone : ∀ name ∈ types.map (·.1), (Node.named ms name).length ≤ 1 := by
      intro name hname
      obtain ⟨m, hm, rfl⟩ := List.mem_map.mp hname
      exact hty.length_le_one m hm
    have hdepth : 0 < Json.depthLimit := by decide
    obtain ⟨fs, hfs⟩ := Node.exists_record? hdepth hkeys hone
    exact ⟨fs, hfs, h.congr (fun m hm => (hget (Node.record?_object hfs).2 m hm).symm) ha⟩

/-- A decoder that reads a description off the object of its line decodes as it should. -/
theorem Decodes.of_reads (hr : Reads types Describes read?)
    (hline : ∀ {ms line}, IsLine ms line → event? line = (read? (.object ms)).bind eventOf?)
    (hyields : ∀ a e, eventOf? a = some e ↔ Yields a e) :
    Decodes types IsLine Describes Yields event? := by
  have hnone : ∀ {ms line}, IsLine ms line →
      ¬ (Node.TextKeys ms ∧ WellTyped types (Node.named ms)) → event? line = none := by
    intro ms line hl hbad
    have hunread : read? (.object ms) = none := Option.eq_none_iff_forall_ne_some.mpr fun a ha =>
      hbad ⟨(hr.object.mp ha).1, hr.exists_iff.mp ⟨a, (hr.object.mp ha).2⟩⟩
    rw [hline hl, hunread, Option.bind_none]
  have huntyped : ∀ {ms line}, IsLine ms line → ¬ WellTyped types (Node.named ms) →
      event? line = none := fun hl hbad => hnone hl fun h => hbad h.2
  have hkeyless : ∀ {ms line}, IsLine ms line → ¬ Node.TextKeys ms → event? line = none :=
    fun hl hbad => hnone hl fun h => hbad h.1
  have heq : ∀ {ms ms' line line'}, IsLine ms line → IsLine ms' line' → Node.TextKeys ms →
      Node.TextKeys ms' → (∀ m ∈ types, (Node.named ms m.1).Perm (Node.named ms' m.1)) →
      event? line = event? line' := by
    intro ms ms' line line' hl hl' hkeys hkeys' hp
    by_cases hty : WellTyped types (Node.named ms)
    · obtain ⟨a, ha⟩ := hr.exists_iff.mpr hty
      have ha' : Describes (Node.named ms') a := hr.congr (hty.eq_of_perm hp) ha
      rw [hline hl, hline hl', hr.object.mpr ⟨hkeys, ha⟩, hr.object.mpr ⟨hkeys', ha'⟩]
    · have hty' : ¬ WellTyped types (Node.named ms') := fun hty' => hty fun m hm => by
        rw [← hty'.eq_of_perm (fun m hm => (hp m hm).symm) m hm]
        exact hty' m hm
      rw [huntyped hl hty, huntyped hl' hty']
  refine ⟨?_, huntyped, ?_, ?_, heq, ?_, hkeyless⟩
  · intro ms line hl hkeys hty
    refine ⟨hr.exists_iff.mpr hty, fun a ha e => ?_⟩
    rw [hline hl, hr.object.mpr ⟨hkeys, ha⟩, Option.bind_some, hyields]
  · intro ms line hl m hm htwo
    refine huntyped hl fun hty => ?_
    have hone := hty.length_le_one m hm
    omega
  · intro ms line hl m hm x hx hbad
    refine huntyped hl fun hty => ?_
    rcases hty m hm with h | ⟨y, h, hy⟩
    · simp [h] at hx
    · rw [h, List.mem_singleton] at hx
      exact hbad (hx ▸ hy)
  · intro ms ms' line line' hl hl' hp
    by_cases hkeys : Node.TextKeys ms
    · exact heq hl hl' hkeys ((Node.textKeys_perm hp).mp hkeys) fun m _ => Node.named_perm hp m.1
    · rw [hkeyless hl hkeys, hkeyless hl' fun hkeys' => hkeys ((Node.textKeys_perm hp).mpr hkeys')]

end

/-- There is no text, or an empty one. -/
def NoText (t : Option String) : Prop := ∀ s, t = some s → s = ""

/-! ### Newline-delimited JSON -/

namespace Ndjson

/-- A line that is an object: a text of it, with blanks around. -/
inductive IsLine (ms : List (List Piece × Node)) : List Char → Prop
  | mk {before cs after : List Char} : (∀ c ∈ before, Text.isBlank c = true) →
      (∀ c ∈ after, Text.isBlank c = true) → (Node.object ms).Spelled cs →
      IsLine ms (before ++ cs ++ after)

namespace Line

/-- The known members of a line. -/
def types : MemberTypes :=
  [("done", fun x => ∃ b, x = .bool b),
    ("message", Nullable fun x => ∃ o, Single "content" Node.IsText x o),
    ("response", Nullable fun x => ∃ s, x.IsText s),
    ("status", Nullable fun x => ∃ s, x.IsText s),
    ("digest", Nullable fun x => ∃ s, x.IsText s),
    ("total", Nullable fun x => ∃ n, x.IsWord n),
    ("completed", Nullable fun x => ∃ n, x.IsWord n),
    ("error", Nullable fun x => ∃ v, x.value? 1 = some v)]

/-- What the values under each name say as a line. -/
structure Describes (get : String → List Node) (l : Line) : Prop where
  done : Defaulted false (fun x b => x = .bool b) (get "done") l.done
  message : Optionally (Single "content" Node.IsText) (get "message") l.message
  response : Optionally Node.IsText (get "response") l.response
  status : Optionally Node.IsText (get "status") l.status
  digest : Optionally Node.IsText (get "digest") l.digest
  total : Optionally Node.IsWord (get "total") l.total
  completed : Optionally Node.IsWord (get "completed") l.completed
  error : Optionally (fun x v => x.value? 1 = some v) (get "error") l.error

/-- The event of a line, by priority. -/
inductive Yields (l : Line) : Event → Prop
  | error {v : Json.Value} : l.error = some v → Yields l (.error (.provider (errorMessage v)))
  | done : l.error = none → l.done = true → Yields l .done
  | message {t : String} : l.error = none → l.done = false → l.message.join = some t → t ≠ "" →
      Yields l (.delta t)
  | response {t : String} : l.error = none → l.done = false → NoText l.message.join →
      l.response = some t → t ≠ "" → Yields l (.delta t)
  | progress {s : String} : l.error = none → l.done = false → NoText l.message.join →
      NoText l.response → l.status = some s →
      Yields l (.progress ⟨s, l.digest, l.total, l.completed⟩)

variable {l : Line} {ms : List (List Piece × Node)} {x : Node}

theorem nonEmpty_eq_some_iff {t : Option String} {s : String} :
    nonEmpty t = some s ↔ t = some s ∧ s ≠ "" := by
  simp [nonEmpty, Option.filter_eq_some_iff]

theorem nonEmpty_eq_none_iff {t : Option String} : nonEmpty t = none ↔ NoText t := by
  simp [nonEmpty, Option.filter_eq_none_iff, NoText]

theorem event?_eq_some_iff (e : Event) : l.event? = some e ↔ l.Yields e := by
  constructor
  · intro h
    unfold event? at h
    split at h
    · rename_i herror
      obtain rfl := Option.some.inj h
      exact .error herror
    · rename_i herror
      split at h
      · rename_i hdone
        obtain rfl := Option.some.inj h
        exact .done herror hdone
      · rename_i hdone
        rw [Bool.not_eq_true] at hdone
        split at h
        · rename_i hmessage
          obtain rfl := Option.some.inj h
          obtain ⟨ht, hne⟩ := nonEmpty_eq_some_iff.mp hmessage
          exact .message herror hdone ht hne
        · rename_i hmessage hresponse
          obtain rfl := Option.some.inj h
          obtain ⟨ht, hne⟩ := nonEmpty_eq_some_iff.mp hresponse
          exact .response herror hdone (nonEmpty_eq_none_iff.mp hmessage) ht hne
        · rename_i hmessage hresponse
          obtain ⟨s, hs, rfl⟩ := Option.map_eq_some_iff.mp h
          exact .progress herror hdone (nonEmpty_eq_none_iff.mp hmessage)
            (nonEmpty_eq_none_iff.mp hresponse) hs
  · intro h
    unfold event?
    cases h with
    | error herror => simp [herror]
    | done herror hdone => simp [herror, hdone]
    | message herror hdone ht hne =>
      simp [herror, hdone, nonEmpty_eq_some_iff.mpr ⟨ht, hne⟩]
    | response herror hdone hmessage ht hne =>
      simp [herror, hdone, nonEmpty_eq_none_iff.mpr hmessage,
        nonEmpty_eq_some_iff.mpr ⟨ht, hne⟩]
    | progress herror hdone hmessage hresponse hs =>
      simp [herror, hdone, nonEmpty_eq_none_iff.mpr hmessage,
        nonEmpty_eq_none_iff.mpr hresponse, hs]

theorem content?_eq_some_iff {o : Option String} :
    content? x = some o ↔ Single "content" Node.IsText x o :=
  Json.single_iff Node.string?_eq_some_iff (by decide)

/-- A line is read from the members of its names. -/
theorem ofNode?_eq_some_iff : ofNode? x = some l ↔
    ∃ fs, x.record? names 0 = some fs ∧ l.Describes fun name => (fs.get? name).toList := by
  simp only [ofNode?, Option.bind_eq_bind, Option.bind_eq_some_iff, Option.pure_def,
    Option.some.injEq, Json.Fields.default?_eq_some_iff Node.bool?_eq_some_iff,
    Json.Fields.optional?_eq_some_iff fun x o => content?_eq_some_iff (x := x) (o := o),
    Json.Fields.optional?_eq_some_iff Node.string?_eq_some_iff,
    Json.Fields.optional?_eq_some_iff Node.uint64?_eq_some_iff,
    Json.Fields.optional?_eq_some_iff fun x v => (Iff.rfl : x.value? 1 = some v ↔ _)]
  constructor
  · rintro ⟨fs, hfs, done, hdone, message, hmessage, response, hresponse, status, hstatus,
      digest, hdigest, total, htotal, completed, hcompleted, error, herror, rfl⟩
    exact ⟨fs, hfs, hdone, hmessage, hresponse, hstatus, hdigest, htotal, hcompleted, herror⟩
  · rintro ⟨fs, hfs, hdone, hmessage, hresponse, hstatus, hdigest, htotal, hcompleted, herror⟩
    exact ⟨fs, hfs, _, hdone, _, hmessage, _, hresponse, _, hstatus, _, hdigest, _, htotal, _,
      hcompleted, _, herror, rfl⟩

namespace Describes

variable {get get' : String → List Node}

theorem congr (hget : ∀ m ∈ types, get m.1 = get' m.1) (h : l.Describes get) :
    l.Describes get' := by
  simp only [types, List.forall_mem_cons] at hget
  obtain ⟨hdone, hmessage, hresponse, hstatus, hdigest, htotal, hcompleted, herror, -⟩ := hget
  exact ⟨hdone ▸ h.done, hmessage ▸ h.message, hresponse ▸ h.response, hstatus ▸ h.status,
    hdigest ▸ h.digest, htotal ▸ h.total, hcompleted ▸ h.completed, herror ▸ h.error⟩

/-- Values say something as a line if each has its type. -/
theorem exists_iff : (∃ l : Line, l.Describes get) ↔ WellTyped types get := by
  simp only [WellTyped, types, List.forall_mem_cons, Nullable]
  constructor
  · rintro ⟨l, h⟩
    exact ⟨Json.exists_defaulted_iff.mp ⟨_, h.done⟩, Json.exists_optionally_iff.mp ⟨_, h.message⟩,
      Json.exists_optionally_iff.mp ⟨_, h.response⟩, Json.exists_optionally_iff.mp ⟨_, h.status⟩,
      Json.exists_optionally_iff.mp ⟨_, h.digest⟩, Json.exists_optionally_iff.mp ⟨_, h.total⟩,
      Json.exists_optionally_iff.mp ⟨_, h.completed⟩, Json.exists_optionally_iff.mp ⟨_, h.error⟩,
      by simp⟩
  · rintro ⟨hdone, hmessage, hresponse, hstatus, hdigest, htotal, hcompleted, herror, -⟩
    obtain ⟨done, hdone⟩ := Json.exists_defaulted_iff.mpr hdone
    obtain ⟨message, hmessage⟩ := Json.exists_optionally_iff.mpr hmessage
    obtain ⟨response, hresponse⟩ := Json.exists_optionally_iff.mpr hresponse
    obtain ⟨status, hstatus⟩ := Json.exists_optionally_iff.mpr hstatus
    obtain ⟨digest, hdigest⟩ := Json.exists_optionally_iff.mpr hdigest
    obtain ⟨total, htotal⟩ := Json.exists_optionally_iff.mpr htotal
    obtain ⟨completed, hcompleted⟩ := Json.exists_optionally_iff.mpr hcompleted
    obtain ⟨error, herror⟩ := Json.exists_optionally_iff.mpr herror
    exact ⟨⟨done, message, response, status, digest, total, completed, error⟩, hdone, hmessage,
      hresponse, hstatus, hdigest, htotal, hcompleted, herror⟩

end Describes

theorem reads : Reads types Describes ofNode? :=
  ⟨ofNode?_eq_some_iff, Describes.exists_iff, Describes.congr⟩

end Line

theorem event?_of_isLine {ms : List (List Piece × Node)} {line : List Char} (h : IsLine ms line) :
    event? line = (Line.ofNode? (.object ms)).bind Line.event? := by
  obtain ⟨hb, ha, hcs⟩ := h
  have htrim : (Node.object ms).Spelled (Text.trim _) := Json.Spells.trim hcs hb ha
  rw [event?, Node.parse?_of_spelled htrim]
  rfl

/-- **A line decodes to what its known members say.** -/
theorem decodes : Decodes Line.types IsLine Line.Describes Line.Yields event? :=
  .of_reads Line.reads event?_of_isLine fun _ e => Line.event?_eq_some_iff e

/-- An object as it is written decodes so in particular. -/
theorem event?_write {ms : List (String × Node)} {l : Line} {e : Event}
    (hw : (Node.ofMembers ms).Writable) (h : l.Describes (Node.valuesOf ms)) (he : l.Yields e) :
    event? (Node.ofMembers ms).write = some e := by
  have hline : IsLine (ms.map fun m => (m.1.toList.map .char, m.2))
      ([] ++ (Node.ofMembers ms).write ++ []) :=
    .mk (by simp) (by simp) (Node.spelled_write hw)
  rw [← funext (Node.named_map ms)] at h
  rw [List.nil_append, List.append_nil] at hline
  have hty := Line.Describes.exists_iff.mp ⟨l, h⟩
  exact ((decodes.typed hline (Node.textKeys_map ms) hty).2 l h e).mpr he

end Ndjson

/-! ### Server-sent events -/

namespace Sse

/-- The field name of a line that counts. -/
def dataField : List Char := ['d', 'a', 't', 'a', ':']

/-- A line whose payload is an object: a text of it between `data:` and blanks. -/
inductive IsLine (ms : List (List Piece × Node)) : List Char → Prop
  | mk {cs after : List Char} : (∀ c ∈ after, Text.isBlank c = true) →
      (Node.object ms).Spelled cs → IsLine ms (dataField ++ cs ++ after)

namespace Chunk

/-- The contents that a list of choices has. -/
def Contents (x : Node) (contents : List (Option (Option String))) : Prop :=
  ∃ xs, x = .array xs ∧
    List.Forall₂ (Single "delta" (Single "content" Node.IsText)) xs contents

/-- The known members of a payload. -/
def types : MemberTypes :=
  [("choices", fun x => ∃ contents, Contents x contents),
    ("error", Nullable fun x => ∃ v, x.value? 1 = some v)]

/-- What the values under each name say as a payload. -/
structure Describes (get : String → List Node) (c : Chunk) : Prop where
  choices : Defaulted [] Contents (get "choices") c.choices
  error : Optionally (fun x v => x.value? 1 = some v) (get "error") c.error

/-- The event of a payload: an error, or else the text of the first choice. -/
inductive Yields (c : Chunk) : Event → Prop
  | error {v : Json.Value} : c.error = some v → Yields c (.error (.provider (errorMessage v)))
  | text {t : String} {rest : List (Option (Option String))} : c.error = none →
      c.choices = some (some t) :: rest → t ≠ "" → Yields c (.delta t)

variable {c : Chunk} {ms : List (List Piece × Node)} {x : Node}

theorem event?_eq_some_iff (e : Event) : c.event? = some e ↔ c.Yields e := by
  constructor
  · intro h
    unfold event? at h
    split at h
    · rename_i herror
      obtain rfl := Option.some.inj h
      exact .error herror
    · rename_i herror
      obtain ⟨t, ht, rfl⟩ := Option.map_eq_some_iff.mp h
      obtain ⟨hfirst, hne⟩ := Ndjson.Line.nonEmpty_eq_some_iff.mp ht
      rw [Option.join_eq_some_iff, Option.join_eq_some_iff, List.head?_eq_some_iff] at hfirst
      obtain ⟨rest, hrest⟩ := hfirst
      exact .text herror hrest hne
  · intro h
    unfold event?
    cases h with
    | error herror => simp [herror]
    | text herror hrest hne => simp [herror, hrest, Ndjson.Line.nonEmpty, hne]

theorem delta?_eq_some_iff {o : Option String} :
    delta? x = some o ↔ Single "content" Node.IsText x o :=
  Json.single_iff Node.string?_eq_some_iff (by decide)

theorem choice?_eq_some_iff {o : Option (Option String)} :
    choice? x = some o ↔ Single "delta" (Single "content" Node.IsText) x o :=
  Json.single_iff (fun _ _ => delta?_eq_some_iff) (by decide)

theorem choices?_eq_some_iff (x : Node) (contents : List (Option (Option String))) :
    choices? x = some contents ↔ Contents x contents := by
  have hchoices : ∀ {xs : List Node}, xs.mapM choice? = some contents ↔
      List.Forall₂ (Single "delta" (Single "content" Node.IsText)) xs contents :=
    mapM_eq_some_iff fun _ _ => choice?_eq_some_iff
  cases x with
  | array xs => simp [choices?, Node.items?, Contents, ← hchoices, Json.depthLimit]
  | _ => simp [choices?, Node.items?, Contents]

/-- A payload is read from the members of its names. -/
theorem ofNode?_eq_some_iff : ofNode? x = some c ↔ ∃ fs,
    x.record? ["choices", "error"] 0 = some fs ∧
      c.Describes fun name => (fs.get? name).toList := by
  simp only [ofNode?, Option.bind_eq_bind, Option.bind_eq_some_iff, Option.pure_def,
    Option.some.injEq, Json.Fields.default?_eq_some_iff choices?_eq_some_iff,
    Json.Fields.optional?_eq_some_iff fun x v => (Iff.rfl : x.value? 1 = some v ↔ _)]
  constructor
  · rintro ⟨fs, hfs, choices, hchoices, error, herror, rfl⟩
    exact ⟨fs, hfs, hchoices, herror⟩
  · rintro ⟨fs, hfs, hchoices, herror⟩
    exact ⟨fs, hfs, _, hchoices, _, herror, rfl⟩

namespace Describes

variable {get get' : String → List Node}

theorem congr (hget : ∀ m ∈ types, get m.1 = get' m.1) (h : c.Describes get) :
    c.Describes get' := by
  simp only [types, List.forall_mem_cons] at hget
  obtain ⟨hchoices, herror, -⟩ := hget
  exact ⟨hchoices ▸ h.choices, herror ▸ h.error⟩

theorem exists_iff : (∃ c : Chunk, c.Describes get) ↔ WellTyped types get := by
  simp only [WellTyped, types, List.forall_mem_cons, Nullable]
  constructor
  · rintro ⟨c, h⟩
    exact ⟨Json.exists_defaulted_iff.mp ⟨_, h.choices⟩,
      Json.exists_optionally_iff.mp ⟨_, h.error⟩, by simp⟩
  · rintro ⟨hchoices, herror, -⟩
    obtain ⟨choices, hchoices⟩ := Json.exists_defaulted_iff.mpr hchoices
    obtain ⟨error, herror⟩ := Json.exists_optionally_iff.mpr herror
    exact ⟨⟨choices, error⟩, hchoices, herror⟩

end Describes

theorem reads : Reads types Describes ofNode? :=
  ⟨ofNode?_eq_some_iff, Describes.exists_iff, Describes.congr⟩

end Chunk

/-- One space after `data:` is passed over. -/
theorem payload?_dataField (rest : List Char) : payload? (dataField ++ rest) =
    some (Text.trimEnd (if rest.head? = some ' ' then rest.tail else rest)) := by
  cases rest with
  | nil => rfl
  | cons c rest =>
    by_cases hc : c = ' '
    · subst hc
      rfl
    · rw [List.head?_cons, if_neg (by simpa using hc), payload?.eq_def]
      simp [dataField, hc]

theorem dataField_prefix {line payload : List Char} (h : payload? line = some payload) :
    dataField <+: line := by
  rw [payload?.eq_def] at h
  split at h
  · exact ⟨_, rfl⟩
  · exact ⟨_, rfl⟩
  · cases h

theorem event?_of_isLine {ms : List (List Piece × Node)} {line : List Char} (h : IsLine ms line) :
    event? line = (Chunk.ofNode? (.object ms)).bind Chunk.event? := by
  obtain ⟨ha, hcs⟩ := h
  rename_i cs after
  have htrim : ∀ {ds : List Char}, (Node.object ms).Spelled ds →
      (Node.object ms).Spelled (Text.trimEnd (ds ++ after)) := fun {ds} hds => by
    have hend : Text.trimEnd (ds ++ after) = Text.trimEnd ds :=
      Text.dropTrailing_append_of_forall _ _ _ ha
    rw [hend]
    exact Json.Spells.trimEnd hds
  obtain ⟨payload, hpayload, hspelled⟩ : ∃ payload, payload? (dataField ++ cs ++ after) =
      some payload ∧ (Node.object ms).Spelled payload := by
    rw [List.append_assoc, payload?_dataField]
    refine ⟨_, rfl, ?_⟩
    cases cs with
    | nil =>
      have hread : Node.parse? [] = some (.object ms) := Node.parse?_of_spelled hcs
      cases hread
    | cons c cs =>
      rw [List.cons_append, List.head?_cons, List.tail_cons]
      split
      · rename_i hc
        obtain rfl := Option.some.inj hc
        exact htrim (Json.Spells.of_space (by decide) hcs)
      · exact htrim hcs
  have hparse : Node.parse? payload = some (.object ms) := Node.parse?_of_spelled hspelled
  have hmark : payload ≠ doneMark := by
    rintro rfl
    have hnone : Node.parse? doneMark = none := by decide
    rw [hnone] at hparse
    cases hparse
  simp only [event?, hpayload, Option.bind_eq_bind, Option.bind_some, if_neg hmark, hparse]

/-- **A server-sent line decodes to what the known members of its payload say.** -/
theorem decodes :
    Decodes Chunk.types IsLine Chunk.Describes Chunk.Yields event? :=
  .of_reads Chunk.reads event?_of_isLine fun _ e => Chunk.event?_eq_some_iff e

theorem event?_write {ms : List (String × Node)} {c : Chunk} {e : Event}
    (hw : (Node.ofMembers ms).Writable) (h : c.Describes (Node.valuesOf ms)) (he : c.Yields e)
    (space : Bool) :
    event? (dataField ++ (if space then [' '] else []) ++ (Node.ofMembers ms).write) = some e := by
  have hspelled : (Node.ofMembers ms).Spelled
      ((if space then [' '] else []) ++ (Node.ofMembers ms).write) := by
    cases space with
    | true => exact .space rfl (Node.spelled_write hw)
    | false => exact Node.spelled_write hw
  have hline : IsLine (ms.map fun m => (m.1.toList.map .char, m.2))
      (dataField ++ ((if space then [' '] else []) ++ (Node.ofMembers ms).write) ++ []) :=
    .mk (by simp) hspelled
  rw [← funext (Node.named_map ms)] at h
  rw [List.append_nil, ← List.append_assoc] at hline
  have hty := Chunk.Describes.exists_iff.mp ⟨c, h⟩
  exact ((decodes.typed hline (Node.textKeys_map ms) hty).2 c h e).mpr he

/-- The mark ends the stream, with blanks after it or without. -/
theorem event?_doneLine {after : List Char} (h : ∀ c ∈ after, Text.isBlank c = true) :
    event? (dataField ++ doneMark ++ after) = some .done ∧
      event? (dataField ++ ' ' :: doneMark ++ after) = some .done := by
  have htrim : Text.trimEnd (doneMark ++ after) = doneMark := by
    have hend : Text.trimEnd (doneMark ++ after) = Text.trimEnd doneMark :=
      Text.dropTrailing_append_of_forall _ _ _ h
    rw [hend]
    rfl
  have hplain : payload? (dataField ++ (doneMark ++ after)) =
      some (Text.trimEnd (doneMark ++ after)) := payload?_dataField _
  have hspace : payload? (dataField ++ ' ' :: (doneMark ++ after)) =
      some (Text.trimEnd (doneMark ++ after)) := payload?_dataField _
  constructor
  · rw [List.append_assoc, event?, hplain, htrim]
    rfl
  · rw [List.append_assoc, List.cons_append, event?, hspace, htrim]
    rfl

theorem dataField_prefix_of_event? {line : List Char} {e : Event} (h : event? line = some e) :
    dataField <+: line := by
  obtain ⟨payload, hpayload, -⟩ := Option.bind_eq_some_iff.mp h
  exact dataField_prefix hpayload

end Sse

/-! ### Both formats -/

namespace WireFormat

/-- **Lines decode to what their known members say.** A server-sent line counts only after `data:`,
and the mark there ends the stream. -/
theorem lines_decode :
    Decodes Ndjson.Line.types Ndjson.IsLine Ndjson.Line.Describes Ndjson.Line.Yields
        Ndjson.event? ∧
      Decodes Sse.Chunk.types Sse.IsLine Sse.Chunk.Describes Sse.Chunk.Yields Sse.event? ∧
      (∀ line e, Sse.event? line = some e → Sse.dataField <+: line) ∧
      ∀ after, (∀ c ∈ after, Text.isBlank c = true) →
        Sse.event? (Sse.dataField ++ Sse.doneMark ++ after) = some .done ∧
          Sse.event? (Sse.dataField ++ ' ' :: Sse.doneMark ++ after) = some .done :=
  ⟨Ndjson.decodes, Sse.decodes, fun _ _ => Sse.dataField_prefix_of_event?,
    fun _ => Sse.event?_doneLine⟩

/-- The text of a message before an empty response and after an unknown member, whose value is no
text. -/
def shuffledMembers : List (List Piece × Node) :=
  [("extra", .array [.object [], .string [.high 0]]), ("response", .ofString ""),
    ("message", .ofMembers [("content", .ofString "hi")]), ("done", .bool false)].map
      fun m => (m.1.toList.map .char, m.2)

theorem lines_decode_shuffledMembers :
    Ndjson.IsLine shuffledMembers ([' '] ++ (Node.object shuffledMembers).write ++ ['\r']) ∧
      Node.TextKeys shuffledMembers ∧
      WellTyped Ndjson.Line.types (Node.named shuffledMembers) ∧
      Ndjson.event? ([' '] ++ (Node.object shuffledMembers).write ++ ['\r']) =
        some (.delta "hi") := by
  have hextra : (Node.array [.object [], .string [.high 0]]).Writable :=
    ⟨trivial, by simp [Node.Writable, Json.Piece.Writable], trivial⟩
  have hcontent : (Node.ofMembers [("content", .ofString "hi")]).Writable :=
    Node.writable_ofMembers _ (by simpa using Node.writable_ofString "hi")
  have hwritable : (Node.object shuffledMembers).Writable :=
    Node.writable_ofMembers _ (by
      simpa using ⟨hextra, Node.writable_ofString "", hcontent, trivial⟩)
  have hline : Ndjson.IsLine shuffledMembers
      ([' '] ++ (Node.object shuffledMembers).write ++ ['\r']) :=
    .mk (List.forall_mem_singleton.mpr rfl) (List.forall_mem_singleton.mpr rfl)
      (Node.spelled_write hwritable)
  have hkeys : Node.TextKeys shuffledMembers := Node.textKeys_map _
  have hdescribes : Ndjson.Line.Describes (Node.named shuffledMembers)
      ⟨false, some (some "hi"), some "", none, none, none, none, none⟩ := by
    have hcontent : Single "content" Node.IsText (.ofMembers [("content", .ofString "hi")])
        (some "hi") :=
      Json.single_ofMembers (.given (Node.ofString_ne_null "hi") (Node.isText_ofString "hi"))
    exact ⟨.given rfl, .given (by simp) hcontent, .given (by simp) ⟨_, rfl, rfl⟩, .absent, .absent,
      .absent, .absent, .absent⟩
  have hty := Ndjson.Line.Describes.exists_iff.mp ⟨_, hdescribes⟩
  exact ⟨hline, hkeys, hty, ((lines_decode.1.typed hline hkeys hty).2 _ hdescribes _).mpr
    (.message rfl rfl rfl (by decide))⟩

end WireFormat

namespace Ndjson

/-- An object with an unpaired surrogate as a key, which says besides that the answer is done. -/
def unpairedMembers : List (List Piece × Node) :=
  [([.high 0], .ofNat 1), ("done".toList.map .char, .bool true)]

/-- A key that is no text silences a line that would be the end of the answer without it. -/
theorem event?_unpairedMembers :
    IsLine unpairedMembers (Node.object unpairedMembers).write ∧
      WellTyped Line.types (Node.named unpairedMembers) ∧
      (∃ l, Line.Describes (Node.named unpairedMembers) l ∧ l.Yields .done) ∧
      event? (Node.object unpairedMembers).write = none := by
  have hline : IsLine unpairedMembers (Node.object unpairedMembers).write := by
    have hwritable : (Node.object unpairedMembers).Writable :=
      ⟨by simp [Json.Piece.Writable], Node.writable_ofNat 1, by simp [Json.Piece.Writable], trivial,
        trivial⟩
    have hmk : IsLine unpairedMembers ([] ++ (Node.object unpairedMembers).write ++ []) :=
      .mk (by simp) (by simp) (Node.spelled_write hwritable)
    simpa using hmk
  have hdescribes : Line.Describes (Node.named unpairedMembers)
      ⟨true, none, none, none, none, none, none, none⟩ :=
    ⟨.given rfl, .absent, .absent, .absent, .absent, .absent, .absent, .absent⟩
  have hkeys : ¬ Node.TextKeys unpairedMembers := fun h => by
    obtain ⟨name, hname⟩ := h _ List.mem_cons_self
    cases hname
  exact ⟨hline, Line.Describes.exists_iff.mp ⟨_, hdescribes⟩, ⟨_, hdescribes, .done rfl rfl⟩,
    decodes.keys hline hkeys⟩

end Ndjson
end LanInference
