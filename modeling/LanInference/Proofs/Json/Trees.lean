/-
# A tree is read from its text

The machine that reads tokens, put where a value may stand, is at the end of a tree when it has read
the tree's tokens, whatever containers are open around it. So every text of a tree is read as the
tree, and among them the one that is written for it.

Key theorems: `State.run_tokens`, `Node.ofTokens?_tokens`, `Node.parse?_of_spelled`,
`Node.parse?_write`, `printable_write`, `text?_map_char`.
-/
import LanInference.Proofs.Json.Tokens

namespace LanInference
namespace Json

namespace State

theorem run_cons (s : State) (t : Token) (ts : List Token) :
    s.run (t :: ts) = (s.step t).bind fun s => s.run ts := rfl

mutual

/-- The machine reads a tree where a value may stand, inside any containers. -/
theorem run_tokens : ∀ (x : Node) (mayClose : Bool) (stack : List Frame) (ts : List Token),
    (State.value mayClose stack).run (x.tokens ++ ts) = (State.complete x stack).run ts
  | .null, _, _, _ => rfl
  | .bool _, _, _, _ => rfl
  | .number _, _, _, _ => rfl
  | .string _, _, _, _ => rfl
  | .array [], _, _, _ => rfl
  | .array (x :: xs), mayClose, stack, ts => by
    have h := run_items (x :: xs) (List.cons_ne_nil x xs) true [] stack ts
    simpa [Node.tokens, run_cons, step, onValue] using h
  | .object [], _, _, _ => rfl
  | .object (m :: ms), mayClose, stack, ts => by
    have h := run_members (m :: ms) (List.cons_ne_nil m ms) true [] stack ts
    simpa [Node.tokens, run_cons, step, onValue] using h

/-- The items of an array join those that are done, up to the bracket that closes it. -/
theorem run_items : ∀ (xs : List Node), xs ≠ [] →
    ∀ (mayClose : Bool) (done : List Node) (stack : List Frame) (ts : List Token),
    (State.value mayClose (.array done :: stack)).run
        (Node.itemTokens xs ++ .closeArray :: ts) =
      (State.complete (.array (done.reverse ++ xs)) stack).run ts
  | [], h, _, _, _, _ => absurd rfl h
  | [x], _, mayClose, done, stack, ts => by
    rw [Node.itemTokens, run_tokens x, run_cons]
    simp [step, onComplete]
  | x :: y :: xs, _, mayClose, done, stack, ts => by
    rw [Node.itemTokens, List.append_assoc, run_tokens x, List.cons_append, run_cons]
    have h := run_items (y :: xs) (List.cons_ne_nil y xs) false (x :: done) stack ts
    simpa [step, onComplete] using h

theorem run_members : ∀ (ms : List (List Piece × Node)), ms ≠ [] →
    ∀ (mayClose : Bool) (done : List (List Piece × Node)) (stack : List Frame) (ts : List Token),
    (State.key mayClose done stack).run (Node.memberTokens ms ++ .closeObject :: ts) =
      (State.complete (.object (done.reverse ++ ms)) stack).run ts
  | [], h, _, _, _, _ => absurd rfl h
  | [(k, x)], _, mayClose, done, stack, ts => by
    rw [Node.memberTokens, List.cons_append, run_cons, List.cons_append]
    simp only [step, Option.bind_some, run_cons]
    rw [run_tokens x, run_cons]
    simp [step, onComplete]
  | (k, x) :: m :: ms, _, mayClose, done, stack, ts => by
    rw [Node.memberTokens, List.cons_append, run_cons, List.cons_append]
    simp only [step, Option.bind_some, run_cons, List.append_assoc]
    rw [run_tokens x, List.cons_append, run_cons]
    have h := run_members (m :: ms) (List.cons_ne_nil m ms) false ((k, x) :: done) stack ts
    simpa [step, onComplete] using h

end

end State

namespace Node

/-- **A tree is read back from its tokens.** -/
theorem ofTokens?_tokens (x : Node) : ofTokens? x.tokens = some x := by
  have h := State.run_tokens x false [] []
  rw [List.append_nil] at h
  rw [ofTokens?, h]
  rfl

/-- **A tree is read from each of its texts.** -/
theorem parse?_of_spelled {x : Node} {cs : List Char} (h : x.Spelled cs) : parse? cs = some x := by
  rw [parse?, tokens?_of_spells h, Option.bind_some, ofTokens?_tokens]

/-- What is written for a tree is read back. -/
theorem parse?_write {x : Node} (hx : x.Writable) : parse? x.write = some x :=
  parse?_of_spelled (spelled_write hx)

end Node

/-! ### No control characters

What is written takes one line: control characters in strings are escaped. -/

/-- No character of the text is a control character of ASCII below the space. -/
def Printable (cs : List Char) : Prop := ∀ c ∈ cs, 0x20 ≤ c.toNat

theorem Printable.append {cs ds : List Char} (hc : Printable cs) (hd : Printable ds) :
    Printable (cs ++ ds) := fun c h => (List.mem_append.mp h).elim (hc c) (hd c)

theorem Printable.cons {c : Char} {cs : List Char} (hc : 0x20 ≤ c.toNat) (h : Printable cs) :
    Printable (c :: cs) := fun d hd => (List.mem_cons.mp hd).elim (fun e => e ▸ hc) (h d)

theorem Digits.printable {ds : List Char} (h : Digits ds) : Printable ds := by
  intro c hc
  have hd := h.2 c hc
  rw [Char.isDigit, Bool.and_eq_true, decide_eq_true_eq, ge_iff_le, UInt32.le_iff_toNat_le] at hd
  exact Nat.le_trans (by decide) hd.1

theorem printable_unitEscape (n : Nat) : Printable (unitEscape n) := by
  rw [unitEscape, Text.hexFixed_four]
  intro c hc
  simp only [List.mem_cons, List.not_mem_nil, or_false] at hc
  rcases hc with rfl | rfl | rfl | rfl | rfl | rfl
  · decide
  · decide
  all_goals exact Text.le_hexChar (Nat.mod_lt _ (by decide))

theorem Quoted.printable {c : Char} {cs : List Char} (h : Quoted c cs) : Printable cs := by
  cases h with
  | simple e _ hp => exact .cons (by decide) (.cons hp (by simp [Printable]))
  | unit => exact printable_unitEscape c.toNat
  | plain _ _ hc => exact .cons hc (by simp [Printable])

theorem Piece.printable_write (p : Piece) : Printable p.write := by
  cases p with
  | char c => exact (quoted_quoteChar c).printable
  | high n => exact printable_unitEscape _
  | low n => exact printable_unitEscape _

theorem printable_quote (ps : List Piece) : Printable (quote ps) := by
  refine .cons (by decide) (.append (fun c hc => ?_) (by simp [Printable]))
  obtain ⟨p, _, hp⟩ := List.mem_flatMap.mp hc
  exact p.printable_write c hp

theorem ExponentSpelled.printable {exponent : Option (Bool × List Char)} {es : List Char}
    (h : ExponentSpelled exponent es) (hd : ∀ s ds, exponent = some (s, ds) → Digits ds) :
    Printable es := by
  have hletter : ∀ {e : Char}, e = 'e' ∨ e = 'E' → 0x20 ≤ e.toNat := by
    rintro e (rfl | rfl) <;> decide
  cases h with
  | none => simp [Printable]
  | minus ds he | plus ds he =>
    exact .cons (hletter he) (.cons (by decide) (hd _ ds rfl).printable)
  | bare ds he => exact .cons (hletter he) (hd _ ds rfl).printable

theorem Literal.Spelled.printable {n : Literal} {cs : List Char} (h : n.Spelled cs) :
    Printable cs := by
  obtain ⟨hn, hes⟩ := h
  have hsign : Printable (if n.negative then ['-'] else []) := by
    split <;> simp [Printable]
  have hfraction : Printable (fractionText n.fraction) := by
    cases hf : n.fraction with
    | none => simp [fractionText, Printable]
    | some ds => exact .cons (by decide) (hn.fraction ds hf).printable
  exact ((hsign.append hn.whole.printable).append hfraction).append (hes.printable hn.exponent)

/-- Commas keep texts printable. -/
theorem printable_separated : ∀ {ts : List (List Char)}, (∀ t ∈ ts, Printable t) →
    Printable (separated ts)
  | [], _ => by simp [separated, Printable]
  | [t], h => by simpa [separated] using h t List.mem_cons_self
  | t :: u :: ts, h => by
    rw [separated_cons_cons]
    have hmore := printable_separated fun v hv => h v (List.mem_cons_of_mem t hv)
    exact (h t List.mem_cons_self).append (.cons (by decide) hmore)

mutual

theorem printable_write : ∀ (x : Node), x.Writable → Printable x.write
  | .null, _ => by simp [Node.write, Printable]
  | .bool true, _ => by simp [Node.write, Printable]
  | .bool false, _ => by simp [Node.write, Printable]
  | .number _, hn => (Literal.spelled_write hn).printable
  | .string ps, _ => printable_quote ps
  | .array xs, hx => by
    have hitems := printable_separated (printable_itemTexts xs hx)
    exact .cons (by decide) (hitems.append (by simp [Printable]))
  | .object ms, hm => by
    have hmembers := printable_separated (printable_memberTexts ms hm)
    exact .cons (by decide) (hmembers.append (by simp [Printable]))

theorem printable_itemTexts : ∀ (xs : List Node), ItemsWritable xs →
    ∀ t ∈ Node.itemTexts xs, Printable t
  | [], _, t, ht => by cases ht
  | x :: xs, hx, t, ht => by
    rcases List.mem_cons.mp ht with rfl | ht
    · exact printable_write x hx.1
    · exact printable_itemTexts xs hx.2 t ht

theorem printable_memberTexts : ∀ (ms : List (List Piece × Node)), MembersWritable ms →
    ∀ t ∈ Node.memberTexts ms, Printable t
  | [], _, t, ht => by cases ht
  | (k, x) :: ms, hm, t, ht => by
    rcases List.mem_cons.mp ht with rfl | ht
    · exact (printable_quote k).append (.cons (by decide) (printable_write x hm.2.1))
    · exact printable_memberTexts ms hm.2.2 t ht

end

/-! ### Strings without surrogates -/

theorem text?_go_map_char : ∀ (cs acc : List Char),
    text?.go acc (cs.map .char) = some (acc.reverse ++ cs)
  | [], acc => by simp [text?.go]
  | c :: cs, acc => by simp [text?.go, text?_go_map_char cs]

/-- The text of plain characters. -/
theorem text?_map_char (cs : List Char) : text? (cs.map .char) = some cs :=
  text?_go_map_char cs []

theorem writable_map_char (cs : List Char) : ∀ p ∈ cs.map Piece.char, p.Writable := by
  intro p hp
  obtain ⟨c, _, rfl⟩ := List.mem_map.mp hp
  trivial

namespace Node

theorem writable_ofString (s : String) : (ofString s).Writable := writable_map_char s.toList

/-- An object can be written if the values of its members can. -/
theorem writable_ofMembers : ∀ (ms : List (String × Node)), (∀ m ∈ ms, m.2.Writable) →
    (ofMembers ms).Writable
  | [], _ => trivial
  | m :: ms, h => ⟨writable_map_char m.1.toList, h m List.mem_cons_self,
      writable_ofMembers ms fun n hn => h n (List.mem_cons_of_mem m hn)⟩

theorem writable_ofOption {α : Type} {f : α → Node} (h : ∀ a, (f a).Writable) (o : Option α) :
    (ofOption f o).Writable := by
  cases o with
  | none => trivial
  | some a => exact h a

end Node
end Json
end LanInference
