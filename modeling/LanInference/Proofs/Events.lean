/-
# Sequences of events

Lemmas on sequences that stop at their first terminal event, and on the text of their deltas.

Key definition: `Finished`.
Key theorems: `throughTerminal_append`, `any_throughTerminal`, `finished_throughTerminal`,
`Finished.eq_of_prefix`, `deltaText_append`.
-/
import LanInference.Event

namespace LanInference

/-- A sequence that has come to its end: one event of it is terminal, and it is the last. -/
def Finished (es : List Event) : Prop :=
  ∃ init e, es = init ++ [e] ∧ e.isTerminal = true ∧ ∀ x ∈ init, x.isTerminal = false

theorem finished_singleton {e : Event} (h : e.isTerminal = true) : Finished [e] :=
  ⟨[], e, rfl, h, by simp⟩

theorem Finished.any {es : List Event} (h : Finished es) : es.any Event.isTerminal = true := by
  obtain ⟨init, e, rfl, he, _⟩ := h
  simp [he]

/-- Events that are not terminal may stand before a finished sequence. -/
theorem Finished.append {xs ys : List Event} (hx : xs.any Event.isTerminal = false)
    (hy : Finished ys) : Finished (xs ++ ys) := by
  obtain ⟨init, e, rfl, he, hi⟩ := hy
  refine ⟨xs ++ init, e, by simp, he, fun x hm => ?_⟩
  rcases List.mem_append.mp hm with hm | hm
  · simpa using List.any_eq_false.mp hx x hm
  · exact hi x hm

/-! ### Up to the first terminal event -/

theorem throughTerminal_of_any_eq_false : ∀ {es : List Event},
    es.any Event.isTerminal = false → throughTerminal es = es
  | [], _ => rfl
  | e :: es, h => by
    rw [List.any_cons, Bool.or_eq_false_iff] at h
    rw [throughTerminal, if_neg (by simp [h.1]), throughTerminal_of_any_eq_false h.2]

theorem throughTerminal_append : ∀ xs ys : List Event,
    throughTerminal (xs ++ ys) =
      if xs.any Event.isTerminal then throughTerminal xs else xs ++ throughTerminal ys
  | [], ys => by simp
  | x :: xs, ys => by
    rw [List.cons_append, throughTerminal, throughTerminal, List.any_cons,
      throughTerminal_append xs ys]
    by_cases hx : x.isTerminal = true
    · simp [hx]
    · by_cases hxs : xs.any Event.isTerminal = true
      · simp [hx, hxs]
      · simp [hx, hxs]

theorem any_throughTerminal : ∀ es : List Event,
    (throughTerminal es).any Event.isTerminal = es.any Event.isTerminal
  | [] => rfl
  | e :: es => by
    rw [throughTerminal, List.any_cons]
    by_cases he : e.isTerminal = true
    · simp [he]
    · simp [he, any_throughTerminal es]

/-- Once a terminal event is among them, the events up to the first one are finished. -/
theorem finished_throughTerminal : ∀ {es : List Event},
    es.any Event.isTerminal = true → Finished (throughTerminal es)
  | [], h => by simp at h
  | e :: es, h => by
    rw [throughTerminal]
    by_cases he : e.isTerminal = true
    · rw [if_pos he]
      exact finished_singleton he
    · rw [if_neg he]
      have hes : es.any Event.isTerminal = true := by simpa [he] using h
      have h1 : [e].any Event.isTerminal = false := by simp [he]
      exact (finished_throughTerminal hes).append h1

/-- A finished sequence goes on after none of its terminal events. -/
theorem Finished.eq_nil_of_terminal {init rest : List Event} {e : Event}
    (h : Finished (init ++ e :: rest)) (he : e.isTerminal = true) : rest = [] := by
  obtain ⟨before, last, heq, _, hbefore⟩ := h
  rcases List.eq_nil_or_concat rest with rfl | ⟨rest, x, rfl⟩
  · rfl
  · have hcut : (init ++ e :: rest) ++ [x] = before ++ [last] := by simpa using heq
    have hmem : e ∈ before := by
      rw [← (List.append_inj' hcut rfl).1]
      simp
    simp [hbefore e hmem] at he

/-- A beginning of a finished sequence that has come to a terminal event is all of it. -/
theorem Finished.eq_of_prefix {xs es : List Event} (h : Finished es) (hle : xs <+: es)
    (hx : xs.any Event.isTerminal = true) : xs = es := by
  obtain ⟨rest, rfl⟩ := hle
  obtain ⟨e, he, hterminal⟩ := List.any_eq_true.mp hx
  obtain ⟨before, after, rfl⟩ := List.append_of_mem he
  rw [List.append_assoc, List.cons_append] at h
  have hnil := List.append_eq_nil_iff.mp (h.eq_nil_of_terminal hterminal)
  rw [hnil.2, List.append_nil]

/-! ### The text of deltas -/

/-- Whether an event is a piece of text. -/
def Event.isDelta : Event → Bool
  | .delta _ => true
  | _ => false

/-- The text that an event adds. -/
def Event.text : Event → String
  | .delta t => t
  | _ => ""

theorem deltaText_eq_foldl (es : List Event) : deltaText es = es.foldl (· ++ ·.text) "" := by
  unfold deltaText
  congr 1
  funext s e
  cases e <;> simp [Event.text]

theorem foldl_text : ∀ (es : List Event) (s : String),
    es.foldl (· ++ ·.text) s = s ++ es.foldl (· ++ ·.text) ""
  | [], s => by simp
  | e :: es, s => by
    rw [List.foldl_cons, List.foldl_cons, foldl_text es, foldl_text es ("" ++ e.text)]
    simp [String.append_assoc]

theorem deltaText_append (xs ys : List Event) :
    deltaText (xs ++ ys) = deltaText xs ++ deltaText ys := by
  simp only [deltaText_eq_foldl, List.foldl_append]
  exact foldl_text ys _

theorem deltaText_cons (e : Event) (es : List Event) :
    deltaText (e :: es) = e.text ++ deltaText es := by
  have hone : deltaText [e] = e.text := by simp [deltaText_eq_foldl]
  rw [← List.singleton_append, deltaText_append, hone]

theorem deltaText_of_no_delta : ∀ {es : List Event}, es.any Event.isDelta = false →
    deltaText es = ""
  | [], _ => rfl
  | e :: es, h => by
    rw [List.any_cons, Bool.or_eq_false_iff] at h
    rw [deltaText_cons, deltaText_of_no_delta h.2, String.append_empty]
    cases e with
    | delta t => cases h.1
    | _ => rfl

theorem deltaText_concat (es : List Event) (e : Event) :
    deltaText (es ++ [e]) = deltaText es ++ e.text := by
  simp [deltaText_eq_foldl]

end LanInference
