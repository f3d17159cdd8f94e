/-
# The lines of a body

The lines that a buffer gives for a body are the segments that newlines end, each without one
carriage return and decoded by itself; what the buffer holds is the segment that no newline has
ended yet. Both depend on the bytes alone, not on how they were cut into pieces.

Key definitions: `terminated`, `unterminated`, `lineText`, `LineBuffer.after`.
Key theorems: `splitOn_append`, `LineBuffer.push_after`, `LineBuffer.takeRest_after`.
-/
import LanInference.Proofs.Text.Parts
import LanInference.Wire.LineBuffer

namespace LanInference

open LineBuffer (newline)

/-- The segments of a body that a newline ends. -/
def terminated (bytes : List UInt8) : List (List UInt8) := (bytes.splitOn newline).dropLast

/-- The segment of a body after its last newline. -/
def unterminated (bytes : List UInt8) : List UInt8 :=
  (bytes.splitOn newline).getLast (List.splitOn_ne_nil newline bytes)

/-- A segment without one carriage return at its end. -/
def withoutReturn (segment : List UInt8) : List UInt8 :=
  if segment.getLast? = some 13 then segment.dropLast else segment

/-- The text of a segment, whatever its bytes are. -/
def lineText (segment : List UInt8) : String :=
  String.ofList (Utf8.decodeLossy (withoutReturn segment))

/-! ### Cutting at newlines -/

theorem terminated_concat_unterminated (bytes : List UInt8) :
    terminated bytes ++ [unterminated bytes] = bytes.splitOn newline :=
  List.dropLast_concat_getLast _

theorem terminated_nil : terminated [] = [] := rfl

theorem unterminated_nil : unterminated [] = [] := rfl

/-- How a body is cut says what is terminated in it and what is not. -/
theorem of_splitOn {bytes : List UInt8} (segments : List (List UInt8)) (last : List UInt8)
    (h : bytes.splitOn newline = segments ++ [last]) :
    terminated bytes = segments ∧ unterminated bytes = last := by
  rw [← terminated_concat_unterminated] at h
  obtain ⟨ht, hu⟩ := List.append_inj' h rfl
  exact ⟨ht, by simpa using hu⟩

theorem newline_not_mem_unterminated (bytes : List UInt8) : newline ∉ unterminated bytes :=
  (mem_part_of_splitOn (List.getLast_mem _)).1

/-- What is terminated stays so; more bytes go on from what is not. -/
theorem splitOn_append : ∀ xs ys : List UInt8,
    (xs ++ ys).splitOn newline = terminated xs ++ (unterminated xs ++ ys).splitOn newline
  | [], ys => by rw [terminated_nil, unterminated_nil]; rfl
  | x :: xs, ys => by
    have ih := splitOn_append xs ys
    have hs := terminated_concat_unterminated xs
    have hx := List.splitOn_cons_eq_if_modifyHead (a := newline) x xs
    rw [List.cons_append, List.splitOn_cons_eq_if_modifyHead, ih]
    by_cases hb : (x == newline) = true
    · rw [if_pos hb, ← hs, ← List.cons_append] at hx
      obtain ⟨ht, hu⟩ := of_splitOn ([] :: terminated xs) (unterminated xs) hx
      rw [if_pos hb, ht, hu, List.cons_append]
    · rw [if_neg hb, ← hs] at hx
      rw [if_neg hb]
      cases hc : terminated xs with
      | nil =>
        rw [hc] at hx
        obtain ⟨ht, hu⟩ := of_splitOn [] (x :: unterminated xs) hx
        rw [ht, hu, List.nil_append, List.nil_append, List.cons_append,
          List.splitOn_cons_eq_if_modifyHead, if_neg hb]
      | cons t ts =>
        rw [hc] at hx
        obtain ⟨ht, hu⟩ := of_splitOn ((x :: t) :: ts) (unterminated xs) hx
        rw [ht, hu]
        rfl

theorem terminated_append (xs ys : List UInt8) :
    terminated (xs ++ ys) = terminated xs ++ terminated (unterminated xs ++ ys) := by
  refine (of_splitOn _ (unterminated (unterminated xs ++ ys)) ?_).1
  rw [splitOn_append, List.append_assoc, terminated_concat_unterminated]

theorem unterminated_append (xs ys : List UInt8) :
    unterminated (xs ++ ys) = unterminated (unterminated xs ++ ys) := by
  refine (of_splitOn (terminated xs ++ terminated (unterminated xs ++ ys)) _ ?_).2
  rw [splitOn_append, List.append_assoc, terminated_concat_unterminated]

/-- A segment that holds no newline is not terminated. -/
theorem splitOn_of_not_mem {bytes : List UInt8} (h : newline ∉ bytes) :
    terminated bytes = [] ∧ unterminated bytes = bytes :=
  of_splitOn [] bytes (List.splitOn_eq_singleton h)

/-- A newline terminates what stands before it. -/
theorem splitOn_cons_newline {segment : List UInt8} (h : newline ∉ segment) (rest : List UInt8) :
    terminated (segment ++ newline :: rest) = segment :: terminated rest ∧
      unterminated (segment ++ newline :: rest) = unterminated rest := by
  apply of_splitOn (segment :: terminated rest) (unterminated rest)
  rw [List.splitOn_append_cons_self_of_not_mem h, List.cons_append, terminated_concat_unterminated]

/-! ### The buffer -/

theorem decodeLine_reverse (segment : List UInt8) :
    decodeLine segment.reverse = lineText segment := by
  unfold decodeLine lineText withoutReturn
  rw [← List.head?_reverse]
  cases h : segment.reverse with
  | nil => simp [List.reverse_eq_nil_iff.mp h]
  | cons b rest =>
    have hs : segment = rest.reverse ++ [b] := by
      rw [← List.reverse_reverse segment, h, List.reverse_cons]
    by_cases hb : b = 13
    · subst hb
      simp [hs]
    · have hm : ∀ rest', b :: rest ≠ 13 :: rest' := fun _ e => hb (List.cons.inj e).1
      simp [hs, hb]

namespace LineBuffer

/-- The buffer after these bytes. -/
def after (bytes : List UInt8) : LineBuffer := ⟨(unterminated bytes).reverse⟩

/-- One byte more. -/
theorem pushByte_after (bytes : List UInt8) (lines : List String) (b : UInt8) :
    pushByte (after bytes, lines) b = (after (bytes ++ [b]),
      ((terminated (unterminated bytes ++ [b])).map lineText).reverse ++ lines) := by
  have hu := newline_not_mem_unterminated bytes
  unfold pushByte after
  rw [unterminated_append]
  by_cases hb : b = newline
  · obtain ⟨ht, hr⟩ := splitOn_cons_newline hu []
    rw [hb, if_pos rfl, ht, hr, decodeLine_reverse]
    rfl
  · have hn : newline ∉ unterminated bytes ++ [b] := by simp [hu, Ne.symm hb]
    obtain ⟨ht, hr⟩ := splitOn_of_not_mem hn
    rw [if_neg hb, ht, hr]
    simp

theorem foldl_pushByte_after : ∀ (more bytes : List UInt8) (lines : List String),
    more.foldl pushByte (after bytes, lines) = (after (bytes ++ more),
      ((terminated (unterminated bytes ++ more)).map lineText).reverse ++ lines)
  | [], bytes, lines => by
    have ht := (splitOn_of_not_mem (newline_not_mem_unterminated bytes)).1
    simp [ht]
  | b :: more, bytes, lines => by
    rw [List.foldl_cons, pushByte_after, foldl_pushByte_after more]
    have hb : unterminated bytes ++ b :: more = (unterminated bytes ++ [b]) ++ more := by simp
    rw [hb, terminated_append (unterminated bytes ++ [b]), ← unterminated_append bytes [b]]
    simp

/-- More bytes complete the lines that they terminate. -/
theorem push_after (bytes more : List UInt8) :
    (after bytes).push more =
      (after (bytes ++ more), (terminated (unterminated bytes ++ more)).map lineText) := by
  simp [push, foldl_pushByte_after]

/-- The rest is the segment that no newline ends, if it has any bytes. -/
theorem takeRest_after (bytes : List UInt8) :
    ((after bytes).takeRest).2 =
      if unterminated bytes = [] then none else some (lineText (unterminated bytes)) := by
  simp only [takeRest, after, List.isEmpty_reverse, List.isEmpty_iff, decodeLine_reverse]

end LineBuffer
end LanInference
