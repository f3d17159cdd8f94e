/-
# The reader takes nothing but JSON

Whatever the reader of tokens takes spells the tokens that it gives. It reads each token up to its
end, and a number as far as it goes, so that what follows a number has nothing to go on with:
neither a digit, which would have been read, nor a point or an `e`, which no token starts with.

The machine over the tokens has at every moment read the tokens of the containers on its stack and
of what it holds (`State.tokens`), and each token that it takes is joined to them. At the end it has
read the tokens of the tree that it gives. So a text has a tree exactly if it is one of the tree's
texts.

Key definitions: `State.tokens`, `State.Fresh`.
Key theorems: `stringBody?_sound`, `number?_sound`, `token?_sound`, `tokens?_eq_some_iff`,
`State.step_tokens`, `Node.ofTokens?_eq_some_iff`, `Node.parse?_eq_some_iff`.
-/
import LanInference.Proofs.Json.Trees

namespace LanInference
namespace Json

/-! ### Strings -/

/-- What the reader of a string has found from one place on. -/
def StringFound (acc : List Piece) (cs : List Char) (ps : List Piece) (rest : List Char) : Prop :=
  ∃ qs ds, ps = acc.reverse ++ qs ∧ cs = ds ++ '"' :: rest ∧ PiecesSpelled qs ds

theorem Piece.Spelled.found {p : Piece} {ds : List Char} (hp : p.Spelled ds) {acc ps : List Piece}
    {cs rest : List Char} (h : StringFound (p :: acc) cs ps rest) :
    StringFound acc (ds ++ cs) ps rest := by
  obtain ⟨qs, es, rfl, rfl, hqs⟩ := h
  exact ⟨p :: qs, ds ++ es, by simp, by simp, .cons hp hqs⟩

/-- What is read of a string is spelled up to the quote that closes it. -/
theorem stringBody?_sound {acc : List Piece} {cs : List Char} {ps : List Piece}
    {rest : List Char} (h : stringBody? acc cs = some (ps, rest)) :
    StringFound acc cs ps rest := by
  fun_induction stringBody? acc cs with
  | case2 acc a b c d more x y z w hd hc hb ha ih =>
    have hvalue : Text.hexValue? [a, b, c, d] = some (((x * 16 + y) * 16 + z) * 16 + w) := by
      unfold stringBody?.hexDigit at ha hb hc hd
      simp only [Text.hexValue?, List.foldlM_cons, List.foldlM_nil, ha, hb, hc, hd,
        Option.map_some, Option.bind_eq_bind, Option.bind_some, Option.pure_def, Option.some.injEq]
      omega
    exact (Piece.Spelled.unit hvalue).found (ih h)
  | case4 acc e more _ c he ih => exact (Piece.Spelled.simple he).found (ih h)
  | case6 acc more =>
    obtain ⟨rfl, rfl⟩ := Prod.mk.inj (Option.some.inj h)
    exact ⟨[], [], by simp, rfl, .nil⟩
  | case8 acc c more _ _ hquote hplain ih =>
    rw [not_or, Nat.not_lt] at hplain
    have hc : (Piece.char c).Spelled [c] := .plain hquote hplain.2 hplain.1
    exact hc.found (ih h)
  | _ => cases h

/-! ### Numbers -/

/-- What follows a run of digits does not go on with it. -/
def NoDigit (rest : List Char) : Prop := ∀ c, rest.head? = some c → c.isDigit = false

/-- A run of digits and what follows it. -/
theorem span_isDigit (cs : List Char) : ∃ ds rest, cs = ds ++ rest ∧
    cs.span Char.isDigit = (ds, rest) ∧ (∀ c ∈ ds, c.isDigit = true) ∧ NoDigit rest := by
  refine ⟨_, _, (List.takeWhile_append_dropWhile (p := Char.isDigit)).symm,
    List.span_eq_takeWhile_dropWhile _ _, ?_, ?_⟩
  · exact fun c hc => List.all_eq_true.mp List.all_takeWhile c hc
  · intro c hc
    have h := List.head?_dropWhile_not Char.isDigit cs
    rw [hc] at h
    simpa using h

theorem fractionPart?_sound {cs rest : List Char} {fraction : Option (List Char)}
    (h : fractionPart? cs = some (fraction, rest)) (hcs : NoDigit cs) :
    cs = fractionText fraction ++ rest ∧ (∀ ds, fraction = some ds → Digits ds) ∧
      NoDigit rest := by
  unfold fractionPart? at h
  split at h
  · rename_i more
    obtain ⟨ds, tail, rfl, hspan, hds, htail⟩ := span_isDigit more
    rw [hspan] at h
    dsimp only at h
    split at h
    · cases h
    · rename_i hne
      obtain ⟨rfl, rfl⟩ := Prod.mk.inj (Option.some.inj h)
      refine ⟨rfl, ?_, htail⟩
      rintro _ ⟨rfl⟩
      exact ⟨by simpa using hne, hds⟩
  · obtain ⟨rfl, rfl⟩ := Prod.mk.inj (Option.some.inj h)
    exact ⟨rfl, by simp, hcs⟩

/-- The digits of an exponent, after its letter and its sign. -/
theorem exponentDigits_sound {negative : Bool} {cs rest : List Char}
    {exponent : Option (Bool × List Char)}
    (h : (if (cs.span Char.isDigit).1.isEmpty then none
      else some (some (negative, (cs.span Char.isDigit).1), (cs.span Char.isDigit).2)) =
        some (exponent, rest)) :
    ∃ ds, cs = ds ++ rest ∧ exponent = some (negative, ds) ∧ Digits ds ∧ NoDigit rest := by
  obtain ⟨ds, tail, rfl, hspan, hds, htail⟩ := span_isDigit cs
  rw [hspan] at h
  split at h
  · cases h
  · rename_i hne
    obtain ⟨rfl, rfl⟩ := Prod.mk.inj (Option.some.inj h)
    exact ⟨ds, rfl, rfl, ⟨by simpa using hne, hds⟩, htail⟩

theorem exponentPart?_sound {cs rest : List Char} {exponent : Option (Bool × List Char)}
    (h : exponentPart? cs = some (exponent, rest)) (hcs : NoDigit cs) :
    ∃ es, cs = es ++ rest ∧ ExponentSpelled exponent es ∧
      (∀ s ds, exponent = some (s, ds) → Digits ds) ∧ NoDigit rest := by
  have hdigits : ∀ {s : Bool} {ds : List Char}, Digits ds →
      ∀ s' ds', some (s, ds) = some (s', ds') → Digits ds' := by
    rintro s ds hds s' ds' heq
    rwa [← (Prod.mk.inj (Option.some.inj heq)).2]
  unfold exponentPart? at h
  split at h
  · rename_i e more
    split at h
    · rename_i hletter
      dsimp only at h
      split at h
      · rename_i tail
        obtain ⟨ds, rfl, rfl, hds, hrest⟩ := exponentDigits_sound h
        exact ⟨e :: '+' :: ds, rfl, .plus ds hletter, hdigits hds, hrest⟩
      · rename_i tail
        obtain ⟨ds, rfl, rfl, hds, hrest⟩ := exponentDigits_sound h
        exact ⟨e :: '-' :: ds, rfl, .minus ds hletter, hdigits hds, hrest⟩
      · obtain ⟨ds, rfl, rfl, hds, hrest⟩ := exponentDigits_sound h
        exact ⟨e :: ds, rfl, .bare ds hletter, hdigits hds, hrest⟩
    · obtain ⟨rfl, rfl⟩ := Prod.mk.inj (Option.some.inj h)
      exact ⟨[], rfl, .none, by simp, hcs⟩
  · obtain ⟨rfl, rfl⟩ := Prod.mk.inj (Option.some.inj h)
    exact ⟨[], rfl, .none, by simp, hcs⟩

/-- A number after its sign. -/
theorem unsigned_sound {negative : Bool} {cs rest : List Char} {n : Literal}
    (h : (if (cs.span Char.isDigit).1.isEmpty ∨
        ((cs.span Char.isDigit).1.head? = some '0' ∧ (cs.span Char.isDigit).1.length ≠ 1) then none
      else do
        let (fraction, rest) ← fractionPart? (cs.span Char.isDigit).2
        let (exponent, rest) ← exponentPart? rest
        return (⟨negative, (cs.span Char.isDigit).1, fraction, exponent⟩, rest)) =
        some (n, rest)) :
    ∃ ds, cs = ds ++ rest ∧ n.Spelled ((if negative then ['-'] else []) ++ ds) ∧
      NoDigit rest := by
  obtain ⟨whole, tail, rfl, hspan, hwhole, htail⟩ := span_isDigit cs
  rw [hspan] at h
  dsimp only at h
  split at h
  · cases h
  · rename_i hleading
    rw [not_or] at hleading
    obtain ⟨⟨fraction, tail'⟩, hfraction, h⟩ := Option.bind_eq_some_iff.mp h
    obtain ⟨⟨exponent, tail''⟩, hexponent, h⟩ := Option.bind_eq_some_iff.mp h
    obtain ⟨rfl, rfl⟩ := Prod.mk.inj (Option.some.inj h)
    obtain ⟨rfl, hfd, htail'⟩ := fractionPart?_sound hfraction htail
    obtain ⟨es, rfl, hes, hxd, hrest⟩ := exponentPart?_sound hexponent htail'
    have hw : Literal.Writable ⟨negative, whole, fraction, exponent⟩ :=
      ⟨⟨by simpa using hleading.1, hwhole⟩, by simpa using hleading.2, hfd, hxd⟩
    have hspelled := Literal.Spelled.mk hw hes
    refine ⟨whole ++ (fractionText fraction ++ es), by simp, ?_, hrest⟩
    simpa using hspelled

/-- What is read of a number spells it, and no digit follows. -/
theorem number?_sound {cs rest : List Char} {n : Literal} (h : number? cs = some (n, rest)) :
    ∃ ds, cs = ds ++ rest ∧ n.Spelled ds ∧ NoDigit rest := by
  unfold number? at h
  dsimp only at h
  split at h
  · rename_i more
    obtain ⟨ds, rfl, hn, hrest⟩ := unsigned_sound h
    exact ⟨'-' :: ds, rfl, hn, hrest⟩
  · obtain ⟨ds, rfl, hn, hrest⟩ := unsigned_sound h
    exact ⟨ds, rfl, hn, hrest⟩

/-! ### Tokens -/

/-- What is read of a token spells it, and no digit follows a number. -/
theorem token?_sound {cs rest : List Char} {t : Token} (h : token? cs = some (t, rest)) :
    ∃ ds, cs = ds ++ rest ∧ t.Spelled ds ∧ ∀ n, t = .number n → NoDigit rest := by
  unfold token? at h
  split at h
  case h_10 more =>
    obtain ⟨⟨ps, tail⟩, hbody, heq⟩ := Option.map_eq_some_iff.mp h
    obtain ⟨rfl, rfl⟩ := Prod.mk.inj heq
    obtain ⟨qs, ds, rfl, rfl, hqs⟩ := stringBody?_sound hbody
    exact ⟨'"' :: (ds ++ ['"']), by simp, .string hqs, by simp⟩
  case h_11 =>
    obtain ⟨⟨n, tail⟩, hnumber, heq⟩ := Option.map_eq_some_iff.mp h
    obtain ⟨rfl, rfl⟩ := Prod.mk.inj heq
    obtain ⟨ds, rfl, hn, hrest⟩ := number?_sound hnumber
    exact ⟨ds, rfl, .number hn, fun _ _ => hrest⟩
  all_goals
    obtain ⟨rfl, rfl⟩ := Prod.mk.inj (Option.some.inj h)
    exact ⟨_, rfl, by constructor, by simp⟩

/-- No token starts with a point or an `e`. -/
theorem token?_eq_none {c : Char} (hc : c = '.' ∨ c = 'e' ∨ c = 'E') (cs : List Char) :
    token? (c :: cs) = none := by
  rcases hc with rfl | rfl | rfl <;> rfl

/-- A text that is read to its end starts with nothing that a number could go on with, unless it
starts with a digit. -/
theorem go_boundary {n : Nat} {acc ts : List Token} {cs : List Char}
    (h : tokens?.go n acc cs = some ts) (hdigit : NoDigit cs) : Boundary cs := by
  intro c hc
  refine ⟨hdigit c hc, ?_⟩
  by_contra hnone
  have hletter : c = '.' ∨ c = 'e' ∨ c = 'E' := by tauto
  obtain ⟨more, rfl⟩ : ∃ more, cs = c :: more := List.head?_eq_some_iff.mp hc
  have hspace : ¬ isSpace c = true := by
    rcases hletter with rfl | rfl | rfl <;> decide
  cases n with
  | zero => cases h
  | succ n =>
    rw [tokens?.go, if_neg hspace, token?_eq_none hletter] at h
    cases h

/-- The tokens that are read join those before them, and spell the text from there on. -/
theorem go_sound : ∀ {n : Nat} {acc ts : List Token} {cs : List Char},
    tokens?.go n acc cs = some ts → ∃ us, ts = acc.reverse ++ us ∧ Spells us cs
  | n, acc, ts, [], h => by
    have hend : tokens?.go n acc [] = some acc.reverse := by cases n <;> rfl
    rw [hend] at h
    exact ⟨[], by simpa using (Option.some.inj h).symm, .nil⟩
  | 0, acc, ts, c :: cs, h => by cases h
  | n + 1, acc, ts, c :: cs, h => by
    rw [tokens?.go] at h
    split at h
    · rename_i hspace
      obtain ⟨us, hts, hus⟩ := go_sound h
      exact ⟨us, hts, .space hspace hus⟩
    · split at h
      · rename_i t rest hread
        obtain ⟨ds, hcs, ht, hdigit⟩ := token?_sound hread
        obtain ⟨us, rfl, hus⟩ := go_sound h
        rw [hcs]
        exact ⟨t :: us, by simp, .token ht (fun n hn => go_boundary h (hdigit n hn)) hus⟩
      · cases h

/-- **The tokens of a text are those that it spells.** -/
theorem tokens?_eq_some_iff {cs : List Char} {ts : List Token} :
    tokens? cs = some ts ↔ Spells ts cs := by
  refine ⟨fun h => ?_, tokens?_of_spells⟩
  obtain ⟨us, rfl, hus⟩ := go_sound h
  exact hus

/-! ### Trees -/

namespace Node

/-- Items of an array with a comma after each. -/
def itemsBefore (xs : List Node) : List Token := xs.flatMap fun x => x.tokens ++ [.comma]

/-- Members of an object with a comma after each. -/
def membersBefore (ms : List (List Piece × Node)) : List Token :=
  ms.flatMap fun m => .string m.1 :: .colon :: (m.2.tokens ++ [.comma])

theorem itemTokens_concat (x : Node) : ∀ xs : List Node,
    itemTokens (xs ++ [x]) = itemsBefore xs ++ x.tokens
  | [] => rfl
  | [y] => by simp [itemTokens, itemsBefore]
  | y :: z :: xs => by
    have ih := itemTokens_concat x (z :: xs)
    rw [List.cons_append] at ih
    simp [itemTokens, itemsBefore, ih]

theorem memberTokens_concat (k : List Piece) (x : Node) : ∀ ms : List (List Piece × Node),
    memberTokens (ms ++ [(k, x)]) = membersBefore ms ++ .string k :: .colon :: x.tokens
  | [] => rfl
  | [m] => by simp [memberTokens, membersBefore]
  | m :: m' :: ms => by
    have ih := memberTokens_concat k x (m' :: ms)
    rw [List.cons_append] at ih
    simp [memberTokens, membersBefore, ih]

end Node

/-- The tokens of a container part way through, up to the value that comes next in it. -/
def Frame.tokens : Frame → List Token
  | .array done => .openArray :: Node.itemsBefore done.reverse
  | .object done k => .openObject :: (Node.membersBefore done.reverse ++ [.string k, .colon])

/-- The tokens of the open containers, the innermost of which comes first in the list. -/
def stackTokens (stack : List Frame) : List Token := stack.reverse.flatMap Frame.tokens

theorem stackTokens_cons (f : Frame) (stack : List Frame) :
    stackTokens (f :: stack) = stackTokens stack ++ f.tokens := by
  simp [stackTokens]

namespace State

/-- The tokens that the machine has read. -/
def tokens : State → List Token
  | .value _ stack => stackTokens stack
  | .key _ done stack => stackTokens stack ++ .openObject :: Node.membersBefore done.reverse
  | .colon done k stack =>
    stackTokens stack ++ .openObject :: (Node.membersBefore done.reverse ++ [.string k])
  | .complete x stack => stackTokens stack ++ x.tokens

/-- A container may close before a value only while it is empty. -/
def Fresh : State → Prop
  | .value true (.array done :: _) => done = []
  | .key true done _ => done = []
  | _ => True

theorem onValue_tokens {mayClose : Bool} {stack : List Frame} {t : Token} {s' : State}
    (h : onValue mayClose stack t = some s') (hs : (State.value mayClose stack).Fresh) :
    s'.tokens = stackTokens stack ++ [t] ∧ s'.Fresh := by
  unfold onValue at h
  split at h
  case h_7 =>
    split at h
    · rename_i done outer
      obtain rfl : done = [] := hs
      obtain rfl := Option.some.inj h
      exact ⟨by simp [tokens, stackTokens_cons, Frame.tokens, Node.itemsBefore, Node.tokens,
        Node.itemTokens], trivial⟩
    · cases h
  case h_8 => cases h
  all_goals
    obtain rfl := Option.some.inj h
    exact ⟨by simp [tokens, stackTokens_cons, Frame.tokens, Node.itemsBefore, Node.membersBefore,
      Node.tokens], by trivial⟩

theorem onComplete_tokens {x : Node} {stack : List Frame} {t : Token} {s' : State}
    (h : onComplete x stack t = some s') :
    s'.tokens = stackTokens stack ++ x.tokens ++ [t] ∧ s'.Fresh := by
  unfold onComplete at h
  split at h
  case h_5 => cases h
  all_goals
    obtain rfl := Option.some.inj h
    exact ⟨by simp [tokens, stackTokens_cons, Frame.tokens, Node.itemsBefore, Node.membersBefore,
      Node.tokens, Node.itemTokens_concat, Node.memberTokens_concat], trivial⟩

/-- **A token that is taken is joined to those read before.** -/
theorem step_tokens {s s' : State} {t : Token} (h : s.step t = some s') (hs : s.Fresh) :
    s'.tokens = s.tokens ++ [t] ∧ s'.Fresh := by
  unfold step at h
  split at h
  case h_1 => exact onValue_tokens h hs
  case h_5 => exact onComplete_tokens h
  case h_6 => cases h
  case h_2 mayClose done stack ps =>
    obtain rfl := Option.some.inj h
    exact ⟨by simp [tokens], trivial⟩
  case h_3 done stack =>
    obtain rfl : done = [] := hs
    obtain rfl := Option.some.inj h
    exact ⟨by simp [tokens, Node.membersBefore, Node.tokens, Node.memberTokens], trivial⟩
  case h_4 done k stack =>
    obtain rfl := Option.some.inj h
    exact ⟨by simp [tokens, stackTokens_cons, Frame.tokens], trivial⟩

theorem run_tokens_read : ∀ {ts : List Token} {s s' : State}, s.run ts = some s' → s.Fresh →
    s'.tokens = s.tokens ++ ts
  | [], s, s', h, _ => by
    obtain rfl : s = s' := Option.some.inj h
    rw [List.append_nil]
  | t :: ts, s, s', h, hs => by
    rw [run_cons] at h
    obtain ⟨next, hstep, hrest⟩ := Option.bind_eq_some_iff.mp h
    obtain ⟨htokens, hnext⟩ := step_tokens hstep hs
    rw [run_tokens_read hrest hnext, htokens, List.append_assoc, List.singleton_append]

end State

namespace Node

/-- **The tree of tokens is the one that has them.** -/
theorem ofTokens?_eq_some_iff {ts : List Token} {x : Node} :
    ofTokens? ts = some x ↔ ts = x.tokens := by
  constructor
  · intro h
    unfold ofTokens? at h
    split at h
    · rename_i y hrun
      obtain rfl := Option.some.inj h
      exact (State.run_tokens_read hrun trivial).symm
    · cases h
  · rintro rfl
    exact ofTokens?_tokens x

/-- **A text has a tree exactly if it is one of the tree's texts.** -/
theorem parse?_eq_some_iff {cs : List Char} {x : Node} : parse? cs = some x ↔ x.Spelled cs := by
  refine ⟨fun h => ?_, parse?_of_spelled⟩
  obtain ⟨ts, hts, hx⟩ := Option.bind_eq_some_iff.mp h
  rw [ofTokens?_eq_some_iff] at hx
  rw [tokens?_eq_some_iff, hx] at hts
  exact hts

/-- No text has two trees. -/
theorem Spelled.unique {cs : List Char} {x y : Node} (hx : x.Spelled cs) (hy : y.Spelled cs) :
    x = y := by
  have hread := parse?_of_spelled hx
  rw [parse?_of_spelled hy] at hread
  exact (Option.some.inj hread).symm

end Node
end Json
end LanInference
