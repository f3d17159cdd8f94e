/-
# Texts in parts

A text is cut at separators into parts that have none, and put together from parts with a separator
between them. What is read part by part is read as a whole if each part is.

Key theorems: `mem_part`, `mem_intercalate`, `mapM_eq_some_iff`, `exists_of_forall₂`.
-/
import Mathlib.Data.List.Forall2

namespace LanInference

variable {α β : Type}

/-- The parts of a text are made of its characters that are no separators. -/
theorem mem_part {p : α → Bool} : ∀ {cs part : List α}, part ∈ cs.splitOnP p →
    ∀ c ∈ part, c ∈ cs ∧ p c = false
  | [], part, h => by
    rw [List.splitOnP_nil, List.mem_singleton] at h
    simp [h]
  | d :: cs, part, h => by
    have hwider : ∀ {other : List α}, other ∈ cs.splitOnP p →
        ∀ c ∈ other, c ∈ d :: cs ∧ p c = false := fun hother c hc =>
      (mem_part hother c hc).imp_left (List.mem_cons_of_mem d)
    rw [List.splitOnP_cons_eq_if_modifyHead] at h
    by_cases hd : p d = true
    · rw [if_pos hd] at h
      rcases List.mem_cons.mp h with rfl | h
      · simp
      · exact hwider h
    · obtain ⟨first, rest, hs⟩ := List.exists_cons_of_ne_nil (List.splitOnP_ne_nil p cs)
      rw [hs] at hwider
      rw [if_neg hd, hs, List.modifyHead_cons] at h
      rcases List.mem_cons.mp h with rfl | h
      · exact List.forall_mem_cons.mpr
          ⟨⟨List.mem_cons_self, by simpa using hd⟩, hwider List.mem_cons_self⟩
      · exact hwider (List.mem_cons_of_mem first h)

theorem mem_part_of_splitOn [BEq α] [LawfulBEq α] {x : α} {cs part : List α}
    (h : part ∈ cs.splitOn x) : x ∉ part ∧ ∀ c ∈ part, c ∈ cs := by
  rw [List.splitOn_eq_splitOnP] at h
  refine ⟨fun hx => ?_, fun c hc => (mem_part h c hc).1⟩
  have hne := (mem_part h x hx).2
  simp at hne

theorem mem_intercalate {x c : α} : ∀ {parts : List (List α)}, c ∈ [x].intercalate parts →
    c = x ∨ ∃ part ∈ parts, c ∈ part
  | [], h => by simp at h
  | [part], h => by
    rw [List.intercalate_singleton] at h
    exact .inr ⟨part, List.mem_singleton_self part, h⟩
  | part :: next :: parts, h => by
    rw [List.intercalate_cons_cons] at h
    rcases List.mem_append.mp h with h | h
    · rcases List.mem_append.mp h with h | h
      · exact .inr ⟨part, List.mem_cons_self, h⟩
      · exact .inl (List.mem_singleton.mp h)
    · rcases mem_intercalate h with rfl | ⟨other, hmem, hc⟩
      · exact .inl rfl
      · exact .inr ⟨other, List.mem_cons_of_mem _ hmem, hc⟩

/-- A list is read if each of its items is. -/
theorem mapM_eq_some_iff {read : β → Option α} {Accepts : β → α → Prop}
    (hread : ∀ x a, read x = some a ↔ Accepts x a) :
    ∀ {xs : List β} {as : List α}, xs.mapM read = some as ↔ List.Forall₂ Accepts xs as
  | [], as => by
    rw [List.mapM_nil]
    constructor
    · intro h
      obtain rfl := Option.some.inj h
      exact .nil
    · rintro ⟨⟩
      rfl
  | x :: xs, as => by
    have ih : ∀ {as : List α}, xs.mapM read = some as ↔ List.Forall₂ Accepts xs as :=
      mapM_eq_some_iff hread
    simp only [List.mapM_cons, Option.bind_eq_bind, Option.bind_eq_some_iff, Option.pure_def,
      Option.some.injEq, hread, ih]
    constructor
    · rintro ⟨a, ha, as, has, rfl⟩
      exact .cons ha has
    · rintro (_ | ⟨ha, has⟩)
      exact ⟨_, ha, _, has, rfl⟩

theorem exists_of_forall₂ {r : α → β → Prop} {as : List α} {bs : List β}
    (h : List.Forall₂ r as bs) : ∀ b ∈ bs, ∃ a ∈ as, r a b := by
  induction h with
  | nil => simp
  | cons hab _ ih =>
    intro b hb
    rcases List.mem_cons.mp hb with rfl | hb
    · exact ⟨_, List.mem_cons_self, hab⟩
    · obtain ⟨a, ha, hr⟩ := ih b hb
      exact ⟨a, List.mem_cons_of_mem _ ha, hr⟩

end LanInference
