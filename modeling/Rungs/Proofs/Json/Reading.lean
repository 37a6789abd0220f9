import Rungs.Proofs.Json.Grammar
import Mathlib.Data.List.DropRight

/-! The reader finds the value of every text that follows the grammar, whatever freedom the text takes
(`Node.WrittenIn.ofText`). What stands before the value and after it does not matter, as long as a
number cannot go on in what follows. -/

namespace Rungs.Json

section Except

variable {ε α β : Type}

@[simp] theorem ok_bind (a : α) (f : α → Except ε β) : (Except.ok a >>= f) = f a := rfl

@[simp] theorem error_bind (e : ε) (f : α → Except ε β) :
    ((Except.error e : Except ε α) >>= f) = .error e := rfl

@[simp] theorem pure_eq_ok (a : α) : (pure a : Except ε α) = .ok a := rfl

@[simp] theorem throw_eq_error (e : ε) : (throw e : Except ε α) = .error e := rfl

@[simp] theorem map_of_ok (f : α → β) (a : α) : (Except.ok a : Except ε α).map f = .ok (f a) := rfl

@[simp] theorem map_of_error (f : α → β) (e : ε) :
    (Except.error e : Except ε α).map f = .error e := rfl

end Except

/-- Where fuel is enough for something, it allows a step. -/
theorem exists_step {n fuel : Nat} (enough : n + 1 ≤ fuel) : ∃ k, fuel = k + 1 ∧ n ≤ k :=
  ⟨fuel - 1, by omega, by omega⟩

/-! ## Numbers -/

/-- No digit stands at the front. -/
def NoDigit (cs : List Char) : Prop := ∀ c ∈ cs.head?, c.isDigit = false

/-- No number goes on here. -/
structure Delimited (cs : List Char) : Prop where
  digit : NoDigit cs
  point : cs.head? ≠ some '.'
  mark : cs.head? ≠ some 'e' ∧ cs.head? ≠ some 'E'

theorem someDigits_append {ds rest : List Char} (digits : Digits ds) (ends : NoDigit rest) :
    someDigits (ds ++ rest) = .ok (ds, rest) := by
  have stop : rest.takeWhile Char.isDigit = [] ∧ rest.dropWhile Char.isDigit = rest := by
    cases rest with
    | nil => exact ⟨rfl, rfl⟩
    | cons c cs => simp [ends c rfl]
  have split : splitDigits (ds ++ rest) = (ds, rest) := by
    rw [splitDigits, List.takeWhile_append_of_pos digits.digit,
      List.dropWhile_append_of_pos digits.digit, stop.1, stop.2, List.append_nil]
  rw [someDigits, split]
  split
  next none => cases none; exact absurd rfl digits.nonempty
  next none => cases none; exact absurd rfl digits.nonempty
  next => rfl

namespace Lexeme

theorem scanWhole_append {ds rest : List Char} (digits : Digits ds)
    (single : ds.head? = some '0' → ds = ['0']) (ends : NoDigit rest) :
    scanWhole (ds ++ rest) = .ok (ds, rest) := by
  rw [scanWhole, someDigits_append digits ends]
  split
  next long =>
    obtain ⟨rfl, rfl⟩ := by simpa using long
    simp at single
  next => rfl

theorem scanFraction_append {fraction : Option (List Char)} {cs rest : List Char}
    (h : FractionText fraction cs) (ends : NoDigit rest) (point : rest.head? ≠ some '.') :
    scanFraction (cs ++ rest) = .ok (fraction, rest) := by
  cases h with
  | absent =>
    cases rest with
    | nil => rfl
    | cons c cs =>
      rw [List.nil_append, scanFraction]
      rintro _ ⟨rfl, -⟩
      simp at point
  | present digits => simp [scanFraction, someDigits_append digits ends]

theorem scanExponent_append {exponent : Option (Bool × List Char)} {cs rest : List Char}
    (h : ExponentText exponent cs) (ends : Delimited rest) :
    scanExponent (cs ++ rest) = .ok (exponent, rest) := by
  cases h with
  | absent =>
    cases rest with
    | nil => rfl
    | cons c cs =>
      have other : ¬(c = 'e' ∨ c = 'E') := by simpa using ends.mark
      simp [scanExponent, other]
  | @unsigned mark ds marked digits =>
    obtain ⟨d, others, rfl⟩ := List.exists_cons_of_ne_nil digits.nonempty
    have digit : d.isDigit = true := digits.digit d List.mem_cons_self
    have plus : d ≠ '+' := by rintro rfl; simp at digit
    have minus : d ≠ '-' := by rintro rfl; simp at digit
    have read := someDigits_append digits ends.digit
    rw [List.cons_append] at read
    simp [scanExponent, marked, plus, minus, read]
  | plus marked digits =>
    simp [scanExponent, marked, someDigits_append digits ends.digit]
  | minus marked digits =>
    simp [scanExponent, marked, someDigits_append digits ends.digit]

/-- An exponent, and what follows it, neither goes on with digits nor begins with a point. -/
theorem exponent_ends {exponent : Option (Bool × List Char)} {cs rest : List Char}
    (h : ExponentText exponent cs) (ends : Delimited rest) :
    NoDigit (cs ++ rest) ∧ (cs ++ rest).head? ≠ some '.' := by
  cases h with
  | absent => exact ⟨ends.digit, ends.point⟩
  | unsigned marked | plus marked | minus marked =>
    rcases marked with rfl | rfl <;> simp [NoDigit]

theorem fraction_ends {fraction : Option (List Char)} {cs rest : List Char}
    (h : FractionText fraction cs) (ends : NoDigit rest) : NoDigit (cs ++ rest) := by
  cases h with
  | absent => exact ends
  | present => simp [NoDigit]

theorem Text.scan {l : Lexeme} {cs rest : List Char} (h : l.Text cs) (ends : Delimited rest) :
    Lexeme.scan (cs ++ rest) = .ok (l, rest) := by
  obtain @⟨negative, whole, fractionText, exponentText, fraction, exponent, digits, single,
    hasFraction, hasExponent⟩ := h
  obtain ⟨noDigit, noPoint⟩ := exponent_ends hasExponent ends
  have readWhole := scanWhole_append digits single (fraction_ends hasFraction noDigit)
  have readFraction := scanFraction_append hasFraction noDigit noPoint
  have readExponent := scanExponent_append hasExponent ends
  cases negative with
  | true =>
    simp [Lexeme.scan, readWhole, readFraction, readExponent]
  | false =>
    obtain ⟨d, others, rfl⟩ := List.exists_cons_of_ne_nil digits.nonempty
    have digit : d.isDigit = true := digits.digit d List.mem_cons_self
    have minus : d ≠ '-' := by rintro rfl; simp at digit
    rw [List.cons_append] at readWhole
    simp [Lexeme.scan, minus, readWhole, readFraction, readExponent]

end Lexeme

/-! ## Strings -/

theorem HexText.scan {n : Nat} {hex : List Char} (h : HexText n hex) (rest : List Char) :
    scanHex (hex ++ rest) = .ok (n, rest) := by
  obtain ⟨a, b, c, d⟩ := h
  simp [scanHex, a, b, c, d]

theorem scanUnicode_unit {n : Nat} {hex : List Char} (h : HexText n hex)
    (lead : isLeadSurrogate n = false) (trail : isTrailSurrogate n = false) (rest : List Char) :
    scanUnicode (hex ++ rest) = .ok (Char.ofNat n, rest) := by
  simp [scanUnicode, h.scan, lead, trail]

theorem lead_not_trail {n : Nat} (lead : isLeadSurrogate n = true) :
    isTrailSurrogate n = false := by
  simp only [isLeadSurrogate, isTrailSurrogate, Bool.and_eq_true, decide_eq_true_eq] at lead ⊢
  simp only [Bool.and_eq_false_iff, decide_eq_false_iff_not]
  omega

theorem scanUnicode_pair {n m : Nat} {hex hex' : List Char} (h : HexText n hex)
    (lead : isLeadSurrogate n = true) (h' : HexText m hex') (trail : isTrailSurrogate m = true)
    (rest : List Char) :
    scanUnicode (hex ++ '\\' :: 'u' :: (hex' ++ rest)) =
      .ok (Char.ofNat (0x10000 + (n - 0xd800) * 0x400 + (m - 0xdc00)), rest) := by
  simp [scanUnicode, h.scan, lead, lead_not_trail lead, scanWord, h'.scan, trail]

theorem not_unit {letter c : Char} (known : simpleEscape? letter = some c) : letter ≠ 'u' := by
  rintro rfl
  simp [simpleEscape?] at known

/-- A surrogate that stands alone is found out at the latest by the quote that ends the string. -/
theorem scanUnicode_lone {n : Nat} {hex cs : List Char} {more : Except Fault (List Char)}
    (h : HexText n hex)
    (alone : isTrailSurrogate n = true ∨ isLeadSurrogate n = true ∧ ¬TrailAhead cs)
    (inside : Inside more cs) (rest : List Char) :
    scanUnicode (hex ++ (cs ++ '"' :: rest)) = .error .malformed := by
  rcases alone with trail | ⟨lead, none⟩
  · simp [scanUnicode, h.scan, trail]
  · have notTrail := lead_not_trail lead
    have second : ∀ {m : Nat} {hex' : List Char} (tail : List Char), HexText m hex' →
        isTrailSurrogate m = false →
        scanUnicode (hex ++ '\\' :: 'u' :: (hex' ++ tail)) = .error .malformed := by
      intro m hex' tail next other
      simp [scanUnicode, h.scan, lead, notTrail, scanWord, next.scan, other]
    cases inside with
    | nil => simp [scanUnicode, h.scan, lead, notTrail, scanWord]
    | plain quote backslash =>
      simp [scanUnicode, h.scan, lead, notTrail, scanWord, Ne.symm backslash]
    | letter known =>
      simp [scanUnicode, h.scan, lead, notTrail, scanWord, Ne.symm (not_unit known)]
    | unit next _ other => simpa using second _ next other
    | pair next lead' => simpa using second _ next (lead_not_trail lead')
    | lone next alone' =>
      rcases alone' with trail' | ⟨lead', -⟩
      · exact absurd ⟨_, _, _, next, trail', rfl⟩ none
      · simpa using second _ next (lead_not_trail lead')

/-- A character in front of what is read. -/
theorem prepend_map (c : Char) (more : Except Fault (List Char)) (rest : List Char) :
    (do let (cs, rest) ← more.map (·, rest)
        return (c :: cs, rest)) = (more.map (c :: ·)).map (·, rest) := by
  cases more <;> rfl

theorem Inside.read {read : Except Fault (List Char)} {body : List Char} (h : Inside read body)
    {fuel : Nat} (enough : body.length ≤ fuel) (rest : List Char) :
    readText fuel (body ++ '"' :: rest) = read.map (·, rest) := by
  induction h generalizing fuel with
  | nil => simp [readText]
  | plain quote backslash visible _ ih =>
    obtain ⟨fuel, rfl, left⟩ := exists_step enough
    have later := ih left
    simpa [readText, backslash, Nat.not_lt.mpr visible, later] using prepend_map _ _ _
  | letter known _ ih =>
    obtain ⟨fuel, rfl, left⟩ := exists_step enough
    have later := @ih fuel (by simp at left; omega)
    simpa [readText, not_unit known, known, later] using prepend_map _ _ _
  | unit hex lead trail _ ih =>
    obtain ⟨fuel, rfl, left⟩ := exists_step enough
    have later := @ih fuel (by simp at left; omega)
    simpa [readText, scanUnicode_unit hex lead trail, later] using prepend_map _ _ _
  | pair hex lead hex' trail _ ih =>
    obtain ⟨fuel, rfl, left⟩ := exists_step enough
    have later := @ih fuel (by simp at left; omega)
    simpa [readText, scanUnicode_pair hex lead hex' trail, later] using prepend_map _ _ _
  | lone hex alone inside _ =>
    obtain ⟨fuel, rfl, -⟩ := exists_step enough
    simp [readText, scanUnicode_lone hex alone inside]

theorem Inside.skip {read : Except Fault (List Char)} {body : List Char} (h : Inside read body)
    {fuel : Nat} (enough : body.length ≤ fuel) (rest : List Char) :
    skipText fuel (body ++ '"' :: rest) = .ok rest := by
  induction h generalizing fuel with
  | nil => simp [skipText]
  | plain quote backslash visible _ ih =>
    obtain ⟨fuel, rfl, left⟩ := exists_step enough
    simp [skipText, backslash, Nat.not_lt.mpr visible, ih left]
  | letter known _ ih =>
    obtain ⟨fuel, rfl, left⟩ := exists_step enough
    have later := @ih fuel (by simp at left; omega)
    simp [skipText, not_unit known, known, later]
  | unit hex _ _ _ ih | lone hex _ _ ih =>
    obtain ⟨fuel, rfl, left⟩ := exists_step enough
    have later := @ih fuel (by simp at left; omega)
    simp [skipText, hex.scan, later]
  | pair hex _ hex' _ _ ih =>
    obtain ⟨fuel, rfl, left⟩ := exists_step enough
    obtain ⟨fuel, rfl, left⟩ := exists_step left
    have later := @ih fuel (by simp at left; omega)
    simp [skipText, hex.scan, hex'.scan, later]

theorem Inside.scan {read : Except Fault (List Char)} {body : List Char} (h : Inside read body)
    {fuel : Nat} (enough : body.length ≤ fuel) (rest : List Char) :
    scanText fuel (body ++ '"' :: rest) = (read.map String.ofList, .ok rest) := by
  rw [scanText, h.read enough, h.skip enough]
  cases read <;> rfl

/-! ## What stands around a value -/

theorem delimited_cons {c : Char} (mark : c ∈ [',', ']', '\x7d', ' ', '\n', '\t', '\r'])
    (rest : List Char) : Delimited (c :: rest) := by
  have facts : ∀ c ∈ [',', ']', '\x7d', ' ', '\n', '\t', '\r'],
      c.isDigit = false ∧ c ≠ '.' ∧ c ≠ 'e' ∧ c ≠ 'E' := by simp
  obtain ⟨digit, point, small, capital⟩ := facts c mark
  exact ⟨by simpa [NoDigit] using digit, by simpa using point, by simpa using small,
    by simpa using capital⟩

theorem Blank.delimited {after : List Char} (blank : Blank after) {rest : List Char}
    (ends : Delimited rest) : Delimited (after ++ rest) := by
  cases after with
  | nil => exact ends
  | cons c others =>
    have space : isSpace c = true := blank c List.mem_cons_self
    have mark : c = ' ' ∨ c = '\n' ∨ c = '\t' ∨ c = '\r' := by simpa [isSpace, or_assoc] using space
    exact delimited_cons (by simp [mark]) _

theorem skipSpace_skipSpace (cs : List Char) : skipSpace (skipSpace cs) = skipSpace cs :=
  List.dropWhile_idempotent isSpace cs

theorem scanValue_skipSpace (fuel : Nat) (cs : List Char) :
    scanValue fuel (skipSpace cs) = scanValue fuel cs := by
  cases fuel <;> simp [scanValue, skipSpace_skipSpace]

theorem scanItems_skipSpace (fuel : Nat) (cs : List Char) :
    scanItems fuel (skipSpace cs) = scanItems fuel cs := by
  cases fuel <;> simp [scanItems, scanValue_skipSpace]

theorem scanEntries_skipSpace (fuel : Nat) (cs : List Char) :
    scanEntries fuel (skipSpace cs) = scanEntries fuel cs := by
  cases fuel <;> simp [scanEntries, skipSpace_skipSpace]

theorem Blank.scanValue_append {before : List Char} (blank : Blank before) (fuel : Nat)
    (cs : List Char) : scanValue fuel (before ++ cs) = scanValue fuel cs := by
  rw [← scanValue_skipSpace, blank.skipSpace_append, scanValue_skipSpace]

/-! ## Values -/

/-- A reader finds the value in its text, and someone who passes over it meets no fault. -/
structure Node.FoundIn (n : Node) (cs : List Char) : Prop where
  sound : n.skipFault? = none
  scan : ∀ {fuel : Nat} {rest : List Char}, 2 * cs.length ≤ fuel → Delimited rest →
    scanValue fuel (cs ++ rest) = (n, some rest)

theorem MemberText.imp {R S : Node → List Char → Prop} {entry : Entry} {cs : List Char}
    (h : MemberText R entry cs)
    (value : ∀ n part, part.length ≤ cs.length → R n part → S n part) : MemberText S entry cs := by
  obtain ⟨name, before, after, written⟩ := h
  exact .mk name before after (value _ _ (by simp; omega) written)

theorem Separated.imp {α : Type} {R S : α → List Char → Prop} {as : List α} {cs : List Char}
    (h : Separated R as cs) (each : ∀ a part, part.length ≤ cs.length → R a part → S a part) :
    Separated S as cs := by
  induction h with
  | last before part after => exact .last before (each _ _ (by simp; omega) part) after
  | more before part after _ ih =>
    exact .more before (each _ _ (by simp; omega) part) after
      (ih fun a part short => each a part (by simp; omega))

theorem Separated.scanItems {items : List Node} {cs : List Char}
    (h : Separated Node.FoundIn items cs) {fuel : Nat} (enough : 2 * cs.length + 1 ≤ fuel)
    (rest : List Char) :
    Json.scanItems fuel (cs ++ ']' :: rest) = (items, none, some rest) := by
  induction h generalizing fuel with
  | @last item before part after blank found blank' =>
    obtain ⟨fuel, rfl, left⟩ := exists_step enough
    have ends := blank'.delimited (delimited_cons (c := ']') (by simp) rest)
    have value := found.scan (show 2 * part.length ≤ fuel by simp at left; omega) ends
    simp [Json.scanItems, blank.scanValue_append, value, blank'.skipSpace_append,
      skipSpace_cons (c := ']') rfl]
  | @more item items before part after others blank found blank' _ ih =>
    obtain ⟨fuel, rfl, left⟩ := exists_step enough
    have ends := blank'.delimited (delimited_cons (c := ',') (by simp) (others ++ ']' :: rest))
    have value := found.scan (show 2 * part.length ≤ fuel by simp at left; omega) ends
    have later := ih (show 2 * others.length + 1 ≤ fuel by simp at left; omega)
    simp [Json.scanItems, blank.scanValue_append, value, blank'.skipSpace_append,
      skipSpace_cons (c := ',') rfl, later]

/-- The entries from one on that ends where `cs` begins. -/
def entriesAfter (fuel : Nat) (entry : Entry) (cs : List Char) :
    List Entry × Option Fault × Option (List Char) :=
  match skipSpace cs with
  | [] => ([entry], some .truncated, none)
  | '\x7d' :: rest => ([entry], none, some rest)
  | ',' :: cs =>
    let (entries, stop, rest) := scanEntries fuel cs
    (entry :: entries, stop, rest)
  | _ => ([entry], some .malformed, none)

theorem MemberText.scanEntries {entry : Entry} {cs : List Char}
    (h : MemberText Node.FoundIn entry cs) {fuel : Nat} (enough : 2 * cs.length ≤ fuel)
    {before : List Char} (blank : Blank before) {tail : List Char} (ends : Delimited tail) :
    Json.scanEntries (fuel + 1) (before ++ (cs ++ tail)) = entriesAfter fuel entry tail := by
  obtain @⟨_, node, _, left, right, part, @⟨read, body, inside⟩, blankLeft, blankRight, found⟩ := h
  have text := inside.scan (show body.length ≤ fuel by simp at enough; omega)
  have value := found.scan (show 2 * part.length ≤ fuel by simp at enough; omega) ends
  simp only [Json.scanEntries, List.append_assoc, List.cons_append, List.nil_append,
    blank.skipSpace_append, skipSpace_cons (c := '"') rfl, text, blankLeft.skipSpace_append,
    skipSpace_cons (c := ':') rfl, blankRight.scanValue_append, value]
  rfl

theorem Separated.scanEntries {entries : List Entry} {cs : List Char}
    (h : Separated (MemberText Node.FoundIn) entries cs) {fuel : Nat}
    (enough : 2 * cs.length + 1 ≤ fuel) (rest : List Char) :
    Json.scanEntries fuel (cs ++ '\x7d' :: rest) = (entries, none, some rest) := by
  induction h generalizing fuel with
  | @last entry before part after blank member blank' =>
    obtain ⟨fuel, rfl, left⟩ := exists_step enough
    have ends := blank'.delimited (delimited_cons (c := '\x7d') (by simp) rest)
    have first := member.scanEntries (show 2 * part.length ≤ fuel by simp at left; omega)
      blank ends
    simp [first, entriesAfter, blank'.skipSpace_append, skipSpace_cons (c := '\x7d') rfl]
  | @more entry entries before part after others blank member blank' _ ih =>
    obtain ⟨fuel, rfl, left⟩ := exists_step enough
    have ends := blank'.delimited (delimited_cons (c := ',') (by simp) (others ++ '\x7d' :: rest))
    have first := member.scanEntries (show 2 * part.length ≤ fuel by simp at left; omega)
      blank ends
    have later := ih (show 2 * others.length + 1 ≤ fuel by simp at left; omega)
    simp [first, entriesAfter, blank'.skipSpace_append, skipSpace_cons (c := ',') rfl, later]

theorem Separated.skipItems {items : List Node} {cs : List Char}
    (h : Separated Node.FoundIn items cs) : Json.skipItems items = none := by
  induction h with
  | last _ found => simp [Json.skipItems, found.sound]
  | more _ found _ _ ih => simp [Json.skipItems, found.sound, ih]

theorem Separated.skipEntries {entries : List Entry} {cs : List Char}
    (h : Separated (MemberText Node.FoundIn) entries cs) : Json.skipEntries entries = none := by
  induction h with
  | last _ member =>
    obtain ⟨_, _, _, found⟩ := member
    simp [Json.skipEntries, found.sound]
  | more _ member _ _ ih =>
    obtain ⟨_, _, _, found⟩ := member
    simp [Json.skipEntries, found.sound, ih]

/-- What a part begins with is what is met first, behind white space. -/
theorem Separated.begins {α : Type} {R : α → List Char → Prop} {p : Char → Prop}
    (heads : ∀ a cs, R a cs → ∃ c tail, cs = c :: tail ∧ isSpace c = false ∧ p c)
    {as : List α} {cs : List Char} (h : Separated R as cs) (rest : List Char) :
    ∃ c tail, skipSpace (cs ++ rest) = c :: tail ∧ p c := by
  have front {before part : List Char} {a : α} (blank : Blank before) (found : R a part)
      (more : List Char) : ∃ c tail, skipSpace (before ++ (part ++ more)) = c :: tail ∧ p c := by
    obtain ⟨c, tail, rfl, visible, head⟩ := heads a part found
    exact ⟨c, tail ++ more, by simp [blank.skipSpace_append, skipSpace_cons visible], head⟩
  cases h with
  | last blank part _ => simpa using front blank part _
  | more blank part _ _ => simpa using front blank part _

theorem MemberText.begins {R : Node → List Char → Prop} {entry : Entry} {cs : List Char}
    (h : MemberText R entry cs) : ∃ c tail, cs = c :: tail ∧ isSpace c = false ∧ c = '"' := by
  obtain ⟨⟨_⟩, _, _, _⟩ := h
  exact ⟨'"', _, rfl, rfl, rfl⟩

/-- What begins a number begins nothing else. -/
theorem ne_of_numeric {c : Char} (numeric : c = '-' ∨ c.isDigit = true) :
    ∀ d ∈ [' ', '\n', '\t', '\r', ']', 'n', 't', 'f', '"', '[', '\x7b'], c ≠ d := by
  have others : ∀ d ∈ [' ', '\n', '\t', '\r', ']', 'n', 't', 'f', '"', '[', '\x7b'],
      d ≠ '-' ∧ d.isDigit = false := by simp
  rintro d mem rfl
  simp [others c mem] at numeric

theorem Lexeme.Text.begins {l : Lexeme} {cs : List Char} (h : l.Text cs) :
    ∃ c tail, cs = c :: tail ∧ (c = '-' ∨ c.isDigit = true) := by
  obtain @⟨negative, whole, _, _, _, _, digits, _, _, _⟩ := h
  cases negative with
  | true => exact ⟨'-', _, rfl, .inl rfl⟩
  | false =>
    obtain ⟨d, others, rfl⟩ := List.exists_cons_of_ne_nil digits.nonempty
    exact ⟨d, _, rfl, .inr (digits.digit d List.mem_cons_self)⟩

theorem Node.Written.begins {n : Node} {cs : List Char} (h : n.Written cs) :
    ∃ c tail, cs = c :: tail ∧ isSpace c = false ∧ c ≠ ']' := by
  cases h with
  | null | yes | no | emptyArray | array | emptyObject | object =>
    exact ⟨_, _, rfl, by decide, by decide⟩
  | text quoted =>
    obtain ⟨_⟩ := quoted
    exact ⟨_, _, rfl, by decide, by decide⟩
  | number digits =>
    obtain ⟨c, tail, rfl, numeric⟩ := digits.begins
    have other := ne_of_numeric numeric
    exact ⟨c, tail, rfl, by simp [isSpace, other], other ']' (by simp)⟩

theorem scanValue_number {l : Lexeme} {cs rest : List Char} (h : l.Text cs) (ends : Delimited rest)
    (fuel : Nat) : scanValue (fuel + 1) (cs ++ rest) = (.number l.numeral, some rest) := by
  have read := h.scan ends
  obtain ⟨c, tail, rfl, numeric⟩ := h.begins
  have other := ne_of_numeric numeric
  have visible : isSpace c = false := by simp [isSpace, other]
  rw [List.cons_append] at read ⊢
  simp [scanValue, skipSpace_cons visible, other, numeric, scanNumber, read]

theorem scanValue_text {read : Except Fault (List Char)} {body : List Char} (h : Inside read body)
    {fuel : Nat} (enough : body.length ≤ fuel) (rest : List Char) :
    scanValue (fuel + 1) ('"' :: (body ++ '"' :: rest)) =
      (.text (read.map String.ofList), some rest) := by
  simp [scanValue, skipSpace_cons (c := '"') rfl, scanString, h.scan enough]

theorem scanValue_array {items : List Node} {cs : List Char} (h : Separated Node.Written items cs)
    (found : Separated Node.FoundIn items cs) {fuel : Nat} (enough : 2 * cs.length + 1 ≤ fuel)
    (rest : List Char) :
    scanValue (fuel + 1) ('[' :: (cs ++ ']' :: rest)) = (.array items none, some rest) := by
  obtain ⟨c, tail, head, other⟩ := h.begins (fun _ _ part => part.begins) (']' :: rest)
  have scanned : scanItems fuel (c :: tail) = (items, none, some rest) := by
    rw [← head, scanItems_skipSpace]
    exact found.scanItems enough rest
  simp [scanValue, skipSpace_cons (c := '[') rfl, head, other, scanned]

theorem scanValue_object {entries : List Entry} {cs : List Char}
    (found : Separated (MemberText Node.FoundIn) entries cs) {fuel : Nat}
    (enough : 2 * cs.length + 1 ≤ fuel) (rest : List Char) :
    scanValue (fuel + 1) ('\x7b' :: (cs ++ '\x7d' :: rest)) =
      (.object entries none, some rest) := by
  obtain ⟨_, tail, head, rfl⟩ := found.begins (fun _ _ part => part.begins) ('\x7d' :: rest)
  have scanned : scanEntries fuel ('"' :: tail) = (entries, none, some rest) := by
    rw [← head, scanEntries_skipSpace]
    exact found.scanEntries enough rest
  simp [scanValue, skipSpace_cons (c := '\x7b') rfl, head, scanned]

theorem Node.FoundIn.of_step {n : Node} {cs : List Char} (nonempty : cs ≠ [])
    (sound : n.skipFault? = none)
    (scan : ∀ {fuel : Nat} {rest : List Char}, 2 * cs.length ≤ fuel + 1 → Delimited rest →
      scanValue (fuel + 1) (cs ++ rest) = (n, some rest)) : n.FoundIn cs := by
  refine ⟨sound, fun {fuel rest} enough ends => ?_⟩
  have positive : 0 < cs.length := List.length_pos_iff.mpr nonempty
  obtain ⟨fuel, rfl, -⟩ := exists_step (show 0 + 1 ≤ fuel by omega)
  exact scan enough ends

/-- By the length of the text. A bracket takes two steps of the reader and leaves a text that is
shorter by two. -/
theorem Node.Written.foundIn {n : Node} {cs : List Char} (h : n.Written cs) : n.FoundIn cs := by
  obtain ⟨length, short⟩ : ∃ length, cs.length ≤ length := ⟨_, le_rfl⟩
  induction length generalizing n cs with
  | zero =>
    obtain ⟨c, tail, rfl, -⟩ := h.begins
    simp at short
  | succ length ih =>
    have nonempty : cs ≠ [] := by
      obtain ⟨c, tail, rfl, -⟩ := h.begins
      simp
    cases h with
    | null | yes | no => exact .of_step nonempty rfl fun _ _ => rfl
    | number digits =>
      exact .of_step nonempty rfl fun {fuel _} _ ends => scanValue_number digits ends fuel
    | text quoted =>
      obtain ⟨inside⟩ := quoted
      refine .of_step nonempty rfl fun {_ rest} enough _ => ?_
      simpa using scanValue_text inside (by simp at enough; omega) rest
    | emptyArray blank =>
      refine .of_step nonempty rfl fun _ _ => ?_
      simp [scanValue, skipSpace_cons (c := '[') rfl, blank.skipSpace_append,
        skipSpace_cons (c := ']') rfl]
    | emptyObject blank =>
      refine .of_step nonempty rfl fun _ _ => ?_
      simp [scanValue, skipSpace_cons (c := '\x7b') rfl, blank.skipSpace_append,
        skipSpace_cons (c := '\x7d') rfl]
    | array items =>
      have found := items.imp fun n part fits written => ih written (by simp at short; omega)
      refine .of_step nonempty (by simp [Node.skipFault?, found.skipItems])
        fun {_ rest} enough _ => ?_
      simpa using scanValue_array items found (by simp at enough; omega) rest
    | object entries =>
      have found := entries.imp fun entry part fits member =>
        member.imp fun n value fits' written => ih written (by simp at short; omega)
      refine .of_step nonempty (by simp [Node.skipFault?, found.skipEntries])
        fun {_ rest} enough _ => ?_
      simpa using scanValue_object found (by simp at enough; omega) rest

theorem Node.WrittenIn.ofText {n : Node} {text : String} (h : n.WrittenIn text) :
    Document.ofText text = ⟨n, false⟩ := by
  obtain ⟨before, cs, after, blank, written, blank', shape⟩ := h
  have none : Delimited [] := ⟨by simp [NoDigit], by simp, by simp⟩
  have ends : Delimited after := by simpa using blank'.delimited none
  have scanned := written.foundIn.scan
    (show 2 * cs.length ≤ 2 * (before ++ (cs ++ after)).length + 2 by simp; omega) ends
  have clear : skipSpace after = [] := by simpa [skipSpace] using blank'.skipSpace_append []
  rw [Document.ofText, Document.ofChars, shape, blank.scanValue_append, scanned]
  simp [clear]

end Rungs.Json
